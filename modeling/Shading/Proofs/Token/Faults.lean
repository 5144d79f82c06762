import Shading.Proofs.Token.Layout
import Shading.Proofs.Token.Placement

/-!
# Where scanning stops

Scanning stops at the first character where no token can begin: a quote that is not closed on its line, or
a character that begins nothing.  No token read before has looked at it or beyond, so that what stands
before it is a source of its own.

* `Scan.Refuses` — where no token begins, and why;
* `Scan.front_of_append` — a token is read alike when the line is cut somewhere behind it;
* `Scan.Breaks` — the steps by which a line is read up to a character where no token begins;
* `Text.EndsLine` — where the content of a line ends;
* `tokenize_fails_at` — a fault names the first character where no token begins.
-/

namespace Shading

open Text (isBlank isWordStart isWordRest)

namespace Scan

variable {c : Char} {cs rest : List Char} {kind : Token.Kind} {n : Nat} {cause : Cause}

/-! ### Where no token begins -/

/-- No token begins with `c` and goes on in `cs`: a quote is not closed, or the character is neither that of
a mark nor a quote, a digit, a letter or an underscore, nor a hash before a letter or an underscore. -/
inductive Refuses : Char → List Char → Cause → Prop
  | unterminated {cs : List Char} (h : '"' ∉ cs) :
    Refuses '"' cs (.unterminated (String.ofList ('"' :: cs)))
  | unknown {c : Char} {cs : List Char} (hmark : ∀ m : Mark, m.text.toList.head? ≠ some c)
    (hquote : c ≠ '"') (hdigit : c.isDigit = false) (hstart : isWordStart c = false)
    (hhash : c = '#' → ∀ d ∈ cs.head?, isWordStart d = false) : Refuses c cs (.unknown c)

lemma not_mem_of_string (h : string cs = .error cause) :
    '"' ∉ cs ∧ cause = .unterminated (String.ofList ('"' :: cs)) := by
  unfold string at h
  dsimp only at h
  split at h
  · cases h
  · next hopen =>
    refine ⟨fun hmem => ?_, (Except.error.inj h).symm⟩
    have hall : cs.takeWhile (· != '"') = cs :=
      (List.takeWhile_prefix _).eq_of_length_le (Nat.le_of_not_lt hopen)
    rw [← hall] at hmem
    exact absurd (List.mem_takeWhile_imp hmem) (by decide)

/-- A mark begins with one of the characters that are looked for. -/
lemma head?_mark (m : Mark) : ∀ c, m.text.toList.head? = some c →
    (single? c).isSome ∨ (paired? c).isSome ∨ c = '/' := by
  cases m <;> simp [Mark.text, single?, paired?]

/-- **Where the scan stops, no token begins.** -/
theorem refuses_of_front (h : front c cs = .error cause) : Refuses c cs cause := by
  unfold front at h
  split at h
  · cases h
  next hsingle =>
  split at h
  · cases h
  next hpaired =>
  split at h
  · next hslash =>
    split at h <;> cases h
  next hslash =>
  split at h
  · next hquote =>
    subst hquote
    obtain ⟨hopen, rfl⟩ := not_mem_of_string h
    exact .unterminated hopen
  next hquote =>
  split at h
  · cases h
  next hdigit =>
  split at h
  · cases h
  next hstart =>
  split at h
  · cases h
  next hhash =>
  cases h
  refine .unknown (fun m hm => ?_) hquote (by simpa using hdigit) (by simpa using hstart) ?_
  · rcases head?_mark m c hm with hmark | hmark | hmark
    · obtain ⟨m, hm⟩ := Option.isSome_iff_exists.1 hmark
      exact hsingle m hm
    · obtain ⟨⟨alone, withEqual⟩, hm⟩ := Option.isSome_iff_exists.1 hmark
      exact hpaired alone withEqual hm
    · exact hslash hmark
  · rintro rfl d hd
    simpa [Option.mem_def.1 hd] using hhash

/-! ### Cutting a line behind a token -/

/-- What ends in the first part does not see the second. -/
lemma takeWhile_of_append {p : Char → Bool} (h : ((cs ++ rest).takeWhile p).length ≤ cs.length) :
    cs.takeWhile p = (cs ++ rest).takeWhile p := by
  rw [List.takeWhile_append] at h ⊢
  split at h
  · next hall =>
    rw [List.length_append] at h
    have hnone : rest.takeWhile p = [] := List.eq_nil_of_length_eq_zero (by omega)
    rw [if_pos hall, hnone, List.append_nil]
    exact (List.takeWhile_prefix p).eq_of_length hall
  · next hall => rw [if_neg hall]

lemma dropWhile_of_append {p : Char → Bool} (h : ((cs ++ rest).takeWhile p).length ≤ cs.length) :
    (cs ++ rest).dropWhile p = cs.dropWhile p ++ rest := by
  have hsplit := List.takeWhile_append_dropWhile (p := p) (l := cs ++ rest)
  rw [← takeWhile_of_append h] at hsplit
  rw [← List.append_cancel_left_eq (cs.takeWhile p), hsplit, ← List.append_assoc,
    List.takeWhile_append_dropWhile]

/-- The digits behind a point, if they end in the first part. -/
lemma fraction_of_append
    (h : fraction (cs ++ rest) = [] ∨ (fraction (cs ++ rest)).length + 1 ≤ cs.length) :
    fraction cs = fraction (cs ++ rest) := by
  cases cs with
  | nil =>
    rcases h with h | h
    · rw [h]
      rfl
    · simp at h
  | cons d cs =>
    by_cases hd : d = '.'
    · subst hd
      refine takeWhile_of_append ?_
      rcases h with h | h
      · have hnone : (cs ++ rest).takeWhile Char.isDigit = [] := h
        rw [hnone]
        exact Nat.zero_le _
      · exact Nat.le_of_succ_le_succ h
    · simp [fraction, hd]

lemma number_of_append (h : (number (cs ++ rest)).2 ≤ cs.length) :
    number cs = number (cs ++ rest) := by
  have hwhole : ((cs ++ rest).takeWhile Char.isDigit).length ≤ cs.length := by
    unfold number at h
    dsimp only at h
    split at h <;> omega
  have hsplit := congrArg List.length
    (List.takeWhile_append_dropWhile (p := Char.isDigit) (l := cs))
  rw [List.length_append] at hsplit
  unfold number at h ⊢
  rw [dropWhile_of_append hwhole, ← takeWhile_of_append hwhole] at h ⊢
  dsimp only at h ⊢
  have hplaces : fraction (cs.dropWhile Char.isDigit) = fraction (cs.dropWhile Char.isDigit ++ rest) := by
    refine fraction_of_append ?_
    split at h
    · next hnone => exact .inl (List.isEmpty_iff.1 hnone)
    · right
      omega
  rw [hplaces]

lemma string_of_append (h : string (cs ++ rest) = .ok (kind, n)) (hn : n ≤ cs.length + 1) :
    string cs = .ok (kind, n) := by
  unfold string at h ⊢
  dsimp only at h ⊢
  split at h
  · cases h
    have htext : cs.takeWhile (· != '"') = (cs ++ rest).takeWhile (· != '"') :=
      takeWhile_of_append (by omega)
    rw [htext, if_pos (by omega)]
  · cases h

lemma word_of_append (h : (word c (cs ++ rest)).2 ≤ cs.length + 1) : word c cs = word c (cs ++ rest) := by
  have hword : ((cs ++ rest).takeWhile isWordRest).length ≤ cs.length := by
    unfold word at h
    dsimp only at h
    omega
  unfold word
  rw [takeWhile_of_append hword]

lemma head?_of_append {d : Char} (h : (cs ++ rest).head? ≠ some d) : cs.head? ≠ some d := by
  intro hd
  rw [List.head?_append, hd] at h
  exact h rfl

/-- **A token is read alike when the line is cut** somewhere behind it. -/
theorem front_of_append (h : front c (cs ++ rest) = .ok (kind, n)) (hn : n ≤ cs.length + 1) :
    front c cs = .ok (kind, n) := by
  rw [front_eq_ok_iff] at h ⊢
  generalize hchars : cs ++ rest = chars at h
  cases h with
  | single h => exact .single h
  | withEqual h =>
    rcases List.append_eq_cons_iff.1 hchars with ⟨rfl, -⟩ | ⟨cs, rfl, -⟩
    · simp at hn
    · exact .withEqual h
  | alone h hcs =>
    subst hchars
    exact .alone h (head?_of_append hcs)
  | @comment text =>
    -- a comment goes to the end of the line
    have hlength := congrArg List.length hchars
    rw [List.length_append, List.length_cons] at hlength
    obtain rfl : rest = [] := List.eq_nil_of_length_eq_zero (by omega)
    rw [List.append_nil] at hchars
    subst hchars
    exact .comment
  | slash hcs =>
    subst hchars
    exact .slash (head?_of_append hcs)
  | string h =>
    subst hchars
    exact .string (string_of_append h hn)
  | number hc h =>
    subst hchars
    rw [← List.cons_append] at h
    refine .number hc ?_
    rw [number_of_append (by rw [h]; exact hn), h]
  | word hc h =>
    subst hchars
    have hword : word c cs = (kind, n) := by rw [word_of_append (by rw [h]; exact hn), h]
    refine .word (hc.imp_right fun ⟨hhash, hstart⟩ => ⟨hhash, ?_⟩) hword
    cases cs with
    | cons d cs => exact hstart
    | nil =>
      -- a hash alone is no word: the letter behind it belongs to it
      obtain ⟨d, hd, hletter⟩ := (Option.any_eq_true _ _).1 hstart
      obtain ⟨rest, rfl⟩ := List.head?_eq_some_iff.1 hd
      have hlength : 2 ≤ (word c (d :: rest)).2 := by
        simp only [word, List.takeWhile_cons, Text.isWordRest_of_isWordStart hletter, if_true,
          List.length_cons]
        omega
      rw [List.nil_append] at h
      rw [h] at hlength
      exact absurd hn (Nat.not_le.2 hlength)

/-! ### Lines -/

variable {line offset column : Nat} {fault : Fault} {ts : List Token}

/-- The characters from `column` on are read up to one where no token begins. -/
inductive Breaks (line offset : Nat) : Nat → List Char → Fault → Prop
  | here {column : Nat} {c : Char} {cs : List Char} {cause : Cause} (hc : isBlank c = false)
    (hfront : front c cs = .error cause) :
    Breaks line offset column (c :: cs) ⟨cause, ⟨line, column + 1⟩, String.ofList (c :: cs)⟩
  | blank {column : Nat} {c : Char} {cs : List Char} {fault : Fault} (hc : isBlank c = true)
    (h : Breaks line offset (column + 1) cs fault) : Breaks line offset column (c :: cs) fault
  | token {column : Nat} {c : Char} {cs rest : List Char} {kind : Token.Kind} {fault : Fault}
    (hc : isBlank c = false) (hfront : front c (cs ++ rest) = .ok (kind, cs.length + 1))
    (h : Breaks line offset (column + (cs.length + 1)) rest fault) :
    Breaks line offset column (c :: (cs ++ rest)) fault

/-- The characters of a token already read are passed first. -/
lemma breaks_of_tokens {skip : Nat} (h : tokens line offset skip column cs = .error fault) :
    Breaks line offset (column + min skip cs.length) (cs.drop skip) fault := by
  induction cs generalizing skip column with
  | nil => cases h
  | cons c cs ih =>
    cases skip with
    | succ skip =>
      have hbreaks := ih h
      rw [List.drop_succ_cons, List.length_cons]
      rwa [show column + min (skip + 1) (cs.length + 1) = column + 1 + min skip cs.length by omega]
    | zero =>
      rw [List.drop_zero, Nat.zero_min, Nat.add_zero]
      unfold tokens at h
      split at h
      · next hblank => exact .blank hblank (by simpa using ih h)
      · next hblank =>
        split at h
        · next cause hfront =>
          cases h
          exact .here (by simpa using hblank) hfront
        · next kind length hfront =>
          obtain ⟨hpos, hle⟩ := front_le hfront
          obtain ⟨front, rest, rfl, rfl⟩ : ∃ front rest, cs = front ++ rest ∧ length = front.length + 1 :=
            ⟨cs.take (length - 1), cs.drop (length - 1), by simp, by simp; omega⟩
          split at h
          · next hlater =>
            cases h
            have hbreaks := ih hlater
            rw [Nat.add_sub_cancel, List.drop_left, List.length_append,
              Nat.min_eq_left (Nat.le_add_right _ _), Nat.add_assoc, Nat.add_comm 1] at hbreaks
            exact .token (by simpa using hblank) hfront hbreaks
          · cases h

/-- **What stands before the character is read on its own.** -/
lemma Breaks.exists_yields (h : Breaks line offset column cs fault) :
    ∃ read c rest ts, cs = read ++ c :: rest ∧ isBlank c = false ∧ Refuses c rest fault.cause ∧
      fault.position = ⟨line, column + read.length + 1⟩ ∧ fault.rest = String.ofList (c :: rest) ∧
      Yields line offset column read ts := by
  induction h with
  | @here column c cs cause hc hfront =>
    exact ⟨[], c, cs, [], rfl, hc, refuses_of_front hfront, rfl, rfl, .done⟩
  | @blank column d cs fault hd _ ih =>
    obtain ⟨read, c, rest, ts, rfl, hc, hrefuses, hposition, hrest, hyields⟩ := ih
    refine ⟨d :: read, c, rest, ts, rfl, hc, hrefuses, ?_, hrest, .blank hd hyields⟩
    rw [hposition, List.length_cons]
    congr 1
    omega
  | @token column d cs behind kind fault hd hfront _ ih =>
    obtain ⟨read, c, rest, ts, rfl, hc, hrefuses, hposition, hrest, hyields⟩ := ih
    rw [← List.append_assoc] at hfront
    have hcut : front d (cs ++ read) = .ok (kind, cs.length + 1) :=
      front_of_append hfront (by simp)
    refine ⟨d :: (cs ++ read), c, rest, _, by simp, hc, hrefuses, ?_, hrest, .token hd hcut hyields⟩
    rw [hposition, List.length_cons, List.length_append]
    congr 1
    omega

end Scan

/-! ### Texts -/

namespace Text

/-- The content of a line ends where the text does, or before the terminator.  A carriage return before a
line feed belongs to the terminator. -/
inductive EndsLine : List Char → List Char → Prop
  | last {line : List Char} : EndsLine line []
  | lineFeed {line later : List Char} (h : line.getLast? ≠ some '\r') : EndsLine line ('\n' :: later)
  | returnLineFeed {line later : List Char} : EndsLine line ('\r' :: '\n' :: later)

/-- The content of a line ends before its terminator. -/
lemma exists_endsLine {line read cs : List Char} {c : Char} (later : List Char)
    (h : content (line ++ ['\n']) = read ++ c :: cs) :
    ∃ rest, line ++ '\n' :: later = read ++ c :: (cs ++ rest) ∧ EndsLine (c :: cs) rest := by
  rcases content_concat_newline line with hcontent | ⟨before, rfl, hcontent⟩
  · rw [hcontent] at h
    refine ⟨'\n' :: later, by simp [h], .lineFeed fun hlast => ?_⟩
    -- a carriage return would have been left out
    obtain ⟨before, hbefore⟩ := List.getLast?_eq_some_iff.1 hlast
    rw [h, hbefore, ← List.append_assoc] at hcontent
    simp [content] at hcontent
  · rw [hcontent] at h
    exact ⟨'\r' :: '\n' :: later, by simp [h], .returnLineFeed⟩

end Text

namespace Scanner

variable {s : Scanner} {text : List Char} {texts : List (List Char)} {fault : Scan.Fault} {ts : List Token}

/-- The first line stops the scan, or one of the lines behind it. -/
lemma all_cons_eq_error (h : s.all (text :: texts) = .error fault) :
    Scan.Breaks (s.lines + 1) s.offset 0 (Text.content text) fault ∨
      ∃ first, Scan.Yields (s.lines + 1) s.offset 0 (Text.content text) first ∧
        all ⟨s.lines + 1, s.offset + text.length⟩ texts = .error fault := by
  rw [all, line] at h
  cases hfirst : Scan.tokens (s.lines + 1) s.offset 0 0 (Text.content text) with
  | error fault' =>
    rw [hfirst] at h
    cases h
    exact .inl (by simpa using Scan.breaks_of_tokens hfirst)
  | ok first =>
    rw [hfirst] at h
    refine .inr ⟨first, Scan.tokens_eq_ok_iff.1 hfirst, ?_⟩
    cases hlater : all ⟨s.lines + 1, s.offset + text.length⟩ texts with
    | error fault' =>
      simpa [hlater, Except.map] using h
    | ok later => simp [hlater, Except.map] at h

/-- What is left of a line that is cut is a line of its own. -/
lemma all_lines_of_yields (h : Scan.Yields (s.lines + 1) s.offset 0 text ts) (htext : '\n' ∉ text) :
    s.all (Text.lines text) = .ok ts := by
  by_cases hne : text = []
  · subst hne
    cases h
    rfl
  · rw [Text.lines_of_oneLine htext hne, all_cons_eq_ok]
    exact ⟨ts, [], by rwa [Text.content_of_oneLine htext], rfl, by simp⟩

end Scanner

/-- The fault names the character `c`, which stands behind `before`: no token begins with it and goes on in
`cs`, which is the rest of the content of its line and is quoted with it. -/
structure Scan.Fault.Names (fault : Fault) (before : List Char) (c : Char) (cs rest : List Char) : Prop where
  position : fault.position = .behind before
  quoted : fault.rest = String.ofList (c :: cs)
  not_blank : isBlank c = false
  refuses : Refuses c cs fault.cause
  oneLine : '\n' ∉ c :: cs
  endsLine : Text.EndsLine (c :: cs) rest

namespace Scanner

variable {s : Scanner} {before text : List Char} {fault : Scan.Fault}

/-- A line names the character where it stops the scan. -/
lemma names_of_breaks {line : List Char} (h : Scan.Breaks (s.lines + 1) s.offset 0 line fault)
    (hline : '\n' ∉ line) (hbehind : Position.behind before = ⟨s.lines + 1, 1⟩) :
    ∃ read c cs, line = read ++ c :: cs ∧ (∃ ts, s.all (Text.lines read) = .ok ts) ∧
      ∀ rest, Text.EndsLine (c :: cs) rest → fault.Names (before ++ read) c cs rest := by
  obtain ⟨read, c, cs, ts, rfl, hc, hrefuses, hposition, hquoted, hyields⟩ := h.exists_yields
  rw [List.mem_append, not_or] at hline
  refine ⟨read, c, cs, rfl, ⟨ts, all_lines_of_yields hyields hline.1⟩, fun rest hends => ?_⟩
  refine ⟨?_, hquoted, hc, hrefuses, hline.2, hends⟩
  rw [hposition, Position.behind_append_of_oneLine hline.1, hbehind, Nat.zero_add, Nat.add_comm 1]

/-- **The first line that stops the scan** names a character, and all that stands before it is read. -/
theorem exists_names (before : List Char) (h : s.all (Text.lines text) = .error fault)
    (hbehind : Position.behind before = ⟨s.lines + 1, 1⟩) :
    ∃ read c cs rest, text = read ++ c :: (cs ++ rest) ∧ fault.Names (before ++ read) c cs rest ∧
      ∃ ts, s.all (Text.lines read) = .ok ts := by
  induction text using Text.line_induction generalizing s before with
  | nil => cases h
  | last line hline hne =>
    rw [Text.lines_of_oneLine hline hne] at h
    rcases all_cons_eq_error h with hbreaks | ⟨first, -, hlater⟩
    · rw [Text.content_of_oneLine hline] at hbreaks
      obtain ⟨read, c, cs, rfl, hread, hnames⟩ := names_of_breaks hbreaks hline hbehind
      exact ⟨read, c, cs, [], by simp, hnames [] .last, hread⟩
    · cases hlater
  | cons line later hline ih =>
    rw [Text.lines_append_cons hline] at h
    rcases all_cons_eq_error h with hbreaks | ⟨first, hfirst, hlater⟩
    · have hcontent : '\n' ∉ Text.content (line ++ ['\n']) := Text.not_mem_content (by simpa using hline)
      obtain ⟨read, c, cs, hline, hread, hnames⟩ := names_of_breaks hbreaks hcontent hbehind
      obtain ⟨rest, htext, hends⟩ := Text.exists_endsLine later hline
      exact ⟨read, c, cs, rest, htext, hnames rest hends, hread⟩
    · have hbehind' : Position.behind (before ++ line ++ ['\n']) = ⟨s.lines + 1 + 1, 1⟩ := by
        rw [Position.behind_append_newline, Position.behind_append_of_oneLine hline, hbehind]
      obtain ⟨read, c, cs, rest, rfl, hnames, ts, hts⟩ := ih _ hlater hbehind'
      refine ⟨line ++ '\n' :: read, c, cs, rest, by simp, by simpa using hnames, first ++ ts, ?_⟩
      rw [Text.lines_append_cons hline, all_cons_eq_ok]
      exact ⟨first, ts, hfirst, hts, rfl⟩

end Scanner

/-- **A fault names the first character where no token begins.**  Its line and column are those of a
character of the source; what stands before this character is a source of its own.  The character is a
quote that is not closed on its line, or a character that begins no token, and this is the only cause; the
rest of the line is quoted from the character on, without the terminator. -/
theorem tokenize_fails_at {source : String} {fault : Scan.Fault} (h : tokenize source = .error fault) :
    ∃ before c cs rest, source.toList = before ++ c :: (cs ++ rest) ∧ fault.Names before c cs rest ∧
      ∃ ts, tokenize (String.ofList before) = .ok ts := by
  obtain ⟨before, c, cs, rest, hsource, hnames, ts, hts⟩ := Scanner.exists_names [] h rfl
  refine ⟨before, c, cs, rest, hsource, hnames, ts, ?_⟩
  unfold tokenize
  rwa [String.toList_ofList]

/-- A quote is not closed on the second line, behind tokens and before a carriage return. -/
theorem tokenize_fails_at_quote :
    let source := "a // b\r\n  #include \"oops\r\nc"
    let fault : Scan.Fault := ⟨.unterminated "\"oops", ⟨2, 12⟩, "\"oops"⟩
    tokenize source = .error fault ∧ ∃ before c cs rest, source.toList = before ++ c :: (cs ++ rest) ∧
      fault.Names before c cs rest ∧ ∃ ts, tokenize (String.ofList before) = .ok ts := by
  intro source fault
  have h : tokenize source = .error fault := by decide +kernel
  exact ⟨h, tokenize_fails_at h⟩

end Shading
