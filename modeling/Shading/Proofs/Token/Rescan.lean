import Shading.Proofs.Token.Spelling

/-!
# Reading tokens again

The characters of a token, put together with something behind them that cannot go on, are read as the
same token.  A text that is put together from tokens in this way is read as these tokens, wherever it
stands.

* `Delimited` — what cannot go on with a word or a number;
* `Spelled.front` — a token is read again;
* `Scans` — the kinds and the characters of the tokens that a text is read as;
* `Scans.tokenize` — a text on one line as a source.
-/

namespace Shading

open Text (isBlank isWordStart isWordRest)

/-! ### What ends a token -/

/-- What cannot go on with a word or a number. -/
def Delimited (rest : List Char) : Prop := ∀ c ∈ rest.head?, c = ' ' ∨ c = ')' ∨ c = ',' ∨ c = '('

lemma Delimited.cons {c : Char} (h : c = ' ' ∨ c = ')' ∨ c = ',' ∨ c = '(') (rest : List Char) :
    Delimited (c :: rest) := by
  intro d hd
  obtain rfl : c = d := by simpa using hd
  exact h

lemma Delimited.not_digit {rest : List Char} (h : Delimited rest) :
    ∀ c ∈ rest.head?, c.isDigit = false := by
  intro c hc
  rcases h c hc with rfl | rfl | rfl | rfl <;> rfl

lemma Delimited.not_wordRest {rest : List Char} (h : Delimited rest) :
    ∀ c ∈ rest.head?, isWordRest c = false := by
  intro c hc
  rcases h c hc with rfl | rfl | rfl | rfl <;> rfl

lemma Delimited.fraction {rest : List Char} (h : Delimited rest) : Scan.fraction rest = [] := by
  cases rest with
  | nil => rfl
  | cons d rest => rcases h d rfl with rfl | rfl | rfl | rfl <;> rfl

section

variable {p : Char → Bool} {xs ys : List Char}

lemma takeWhile_append_stop (hxs : ∀ c ∈ xs, p c = true) (hys : ∀ c ∈ ys.head?, p c = false) :
    (xs ++ ys).takeWhile p = xs := by
  rw [List.takeWhile_append_of_pos hxs]
  cases ys with
  | nil => simp
  | cons y ys => simp [hys y (by simp)]

lemma dropWhile_append_stop (hxs : ∀ c ∈ xs, p c = true) (hys : ∀ c ∈ ys.head?, p c = false) :
    (xs ++ ys).dropWhile p = ys := by
  rw [List.dropWhile_append_of_pos hxs]
  cases ys with
  | nil => rfl
  | cons y ys => simp [hys y (by simp)]

end

lemma isBlank_of_isWordStart {c : Char} (h : isWordStart c = true) : isBlank c = false := by
  have hcodes : ∀ n ∈ [9, 10, 11, 12, 13, 0x20, 0x85, 0xA0, 0x1680, 0x2000, 0x2001, 0x2002, 0x2003,
      0x2004, 0x2005, 0x2006, 0x2007, 0x2008, 0x2009, 0x200A, 0x2028, 0x2029, 0x202F, 0x205F, 0x3000],
      isWordStart (Char.ofNat n) = false := by decide +kernel
  by_contra hblank
  suffices hc : isWordStart c = false by simp [h] at hc
  refine eq_false_of_codes hcodes ?_
  simp only [isBlank, Bool.not_eq_false, Bool.or_eq_true, Bool.and_eq_true, decide_eq_true_eq,
    beq_iff_eq] at hblank
  simp only [List.mem_cons, List.not_mem_nil, or_false]
  omega

lemma isBlank_of_isDigit {c : Char} (h : c.isDigit = true) : isBlank c = false := by
  obtain ⟨hlow, hhigh⟩ : 48 ≤ c.toNat ∧ c.toNat ≤ 57 := Char.isDigit_iff_toNat.1 h
  simp [isBlank]
  omega

/-! ### Reading one token again -/

namespace Written

variable {c : Char} {cs rest : List Char} {x : Double} {fractional : Bool}

lemma isDigit_head (h : Written (c :: cs) x fractional) : c.isDigit = true := by
  generalize hchars : c :: cs = chars at h
  cases h with
  | whole hne hds =>
    subst hchars
    exact hds c (by simp)
  | places hne hfs hds =>
    obtain ⟨d, ds, rfl⟩ := List.exists_cons_of_ne_nil hne
    obtain ⟨rfl, -⟩ := List.cons.inj hchars
    exact hds _ (by simp)

lemma oneLine (h : Written cs x fractional) : '\n' ∉ cs := by
  have hnewline : '\n'.isDigit ≠ true := by decide
  cases h with
  | whole hne hds => exact fun hmem => hnewline (hds _ hmem)
  | places hne hfs hds =>
    intro hmem
    rcases List.mem_append.1 hmem with hmem | hmem
    · exact hnewline (hds _ (List.mem_append_left _ hmem))
    · rcases List.mem_cons.1 hmem with hmem | hmem
      · cases hmem
      · exact hnewline (hds _ (List.mem_append_right _ hmem))

/-- The number is read again. -/
lemma number (h : Written cs x fractional) (hrest : Delimited rest) :
    Scan.number (cs ++ rest) = (.number x, cs.length) := by
  unfold Scan.number
  dsimp only
  cases h with
  | whole hne hds =>
    rw [takeWhile_append_stop hds hrest.not_digit, dropWhile_append_stop hds hrest.not_digit,
      hrest.fraction]
    simp
  | @places ds fs hne hfs hds =>
    obtain ⟨hds, hfs'⟩ := List.forall_mem_append.1 hds
    have hpoint : ∀ d ∈ ('.' :: (fs ++ rest)).head?, d.isDigit = false := by simp
    have hfraction : Scan.fraction ('.' :: (fs ++ rest)) = fs :=
      takeWhile_append_stop hfs' hrest.not_digit
    rw [List.append_assoc, List.cons_append, takeWhile_append_stop hds hpoint,
      dropWhile_append_stop hds hpoint, hfraction, if_neg (by simpa using hfs), List.length_append,
      List.length_cons, Nat.add_assoc, Nat.add_comm 1]
    rfl

end Written

namespace Spelled

variable {kind : Token.Kind} {c : Char} {cs rest : List Char}

lemma ne_nil (h : Spelled kind cs) : cs ≠ [] := by
  cases h with
  | mark m => cases m <;> decide
  | number h =>
    cases h with
    | whole hne => exact hne
    | places => simp
  | string | word | comment => simp

lemma isBlank_head (h : Spelled kind (c :: cs)) : isBlank c = false := by
  generalize hchars : c :: cs = chars at h
  cases h with
  | mark m =>
    cases m <;> cases hchars <;> rfl
  | number h =>
    subst hchars
    exact isBlank_of_isDigit h.isDigit_head
  | string => cases hchars; rfl
  | word hstart =>
    cases hchars
    rcases hstart with hstart | ⟨rfl, -⟩
    · exact isBlank_of_isWordStart hstart
    · rfl
  | comment => cases hchars; rfl

lemma oneLine (h : Spelled kind cs) : '\n' ∉ cs := by
  cases h with
  | mark m => cases m <;> decide
  | number h => exact h.oneLine
  | string _ hline => simpa using hline
  | word hstart hrest =>
    have hnewline : isWordRest '\n' ≠ true := by decide
    intro hmem
    rcases List.mem_cons.1 hmem with hmem | hmem
    · rw [← hmem] at hstart
      exact absurd hstart (by rintro (h | ⟨h, -⟩) <;> revert h <;> decide)
    · exact hnewline (hrest _ hmem)
  | comment hline => simpa using hline

/-- **A token is read again** before a character that ends it. -/
theorem front (h : Spelled kind (c :: cs)) (hrest : Delimited rest)
    (hcomment : ∀ text, kind ≠ .comment text) :
    Scan.front c (cs ++ rest) = .ok (kind, cs.length + 1) := by
  generalize hchars : c :: cs = chars at h
  cases h with
  | mark m =>
    cases rest with
    | nil => cases m <;> cases hchars <;> rfl
    | cons d rest => rcases hrest d rfl with rfl | rfl | rfl | rfl <;> cases m <;> cases hchars <;> rfl
  | number h =>
    subst hchars
    rw [Scan.front_of_isDigit h.isDigit_head, ← List.cons_append, h.number hrest]
    rfl
  | @string text hquote hline =>
    cases hchars
    have htext : (text ++ '"' :: rest).takeWhile (· != '"') = text := by
      refine takeWhile_append_stop (fun d hd => bne_iff_ne.2 fun heq => ?_) (by simp)
      exact hquote (heq ▸ hd)
    show Scan.string ((text ++ ['"']) ++ rest) = _
    unfold Scan.string
    simp [htext]
  | word hstart hword =>
    cases hchars
    have hstart' : StartsWord c (cs ++ rest) := by
      refine hstart.imp_right fun ⟨hc, hhead⟩ => ⟨hc, ?_⟩
      cases cs with
      | nil => cases hhead
      | cons d cs => exact hhead
    rw [Scan.front_of_startsWord hstart']
    unfold Scan.word
    rw [takeWhile_append_stop hword hrest.not_wordRest, Nat.add_comm]
    rfl
  | comment => exact absurd rfl (hcomment _)

end Spelled

/-! ### Reading a text -/

namespace Text

/-- No character ends a line in these. -/
lemma forall_ne_lineFeed {cs : List Char} : (∀ c ∈ cs, (c == '\n') = false) ↔ '\n' ∉ cs := by
  simp only [beq_eq_false_iff_ne]
  exact ⟨fun h hmem => h _ hmem rfl, fun h c hc => ne_of_mem_of_not_mem hc h⟩

lemma lines_of_oneLine {cs : List Char} (h : '\n' ∉ cs) (hne : cs ≠ []) : lines cs = [cs] :=
  splitAfter_of_forall (forall_ne_lineFeed.2 h) hne

lemma content_of_oneLine {cs : List Char} (h : '\n' ∉ cs) : content cs = cs := by
  have hrev : '\n' ∉ cs.reverse := by simpa using h
  unfold content
  split
  · next heq => simp [heq] at hrev
  · next heq => simp [heq] at hrev
  · rfl

end Text

/-- What a rule can see of a token: its kind and its characters. -/
abbrev Piece := Token.Kind × String

def Token.piece (t : Token) : Piece := (t.kind, t.lexeme)

/-- How a mark is seen. -/
def Mark.piece (m : Mark) : Piece := (.mark m, m.text)

/-- How a name is seen. -/
def wordPiece (name : String) : Piece := (.identifier name, name)

/-- The text stands on one line and is read as these pieces, wherever it stands. -/
structure Scans (cs : List Char) (ps : List Piece) : Prop where
  oneLine : '\n' ∉ cs
  tokens : ∀ line offset column, ∃ ts, Scan.tokens line offset 0 column cs = .ok ts ∧
    ts.map Token.piece = ps

namespace Scans

variable {c : Char} {cs rest : List Char} {ps : List Piece} {kind : Token.Kind}

lemma nil : Scans [] [] := ⟨by simp, fun _ _ _ => ⟨[], rfl, rfl⟩⟩

lemma space (h : Scans cs ps) : Scans (' ' :: cs) ps := by
  refine ⟨by simpa using h.oneLine, fun line offset column => ?_⟩
  exact h.tokens line offset (column + 1)

/-- **One token and what is behind it.** -/
lemma cons (hblank : isBlank c = false) (hline : '\n' ∉ c :: cs)
    (hfront : Scan.front c (cs ++ rest) = .ok (kind, cs.length + 1)) (h : Scans rest ps) :
    Scans (c :: cs ++ rest) ((kind, String.ofList (c :: cs)) :: ps) := by
  refine ⟨fun hmem => (List.mem_append.1 hmem).elim hline h.oneLine, fun line offset column => ?_⟩
  obtain ⟨ts, hts, hpieces⟩ := h.tokens line offset (column + 1 + min cs.length (cs ++ rest).length)
  have hskip : Scan.tokens line offset cs.length (column + 1) (cs ++ rest) = .ok ts := by
    rw [Scan.tokens_skip, List.drop_left, hts]
  refine ⟨_, by simp [Scan.tokens, hblank, hfront, hskip]; rfl, ?_⟩
  simp [Token.piece, hpieces]

/-- A token before something that ends it. -/
lemma spelled {text : String} (h : Spelled kind text.toList) (hcomment : ∀ text, kind ≠ .comment text)
    (hdelimited : Delimited rest) (hrest : Scans rest ps) :
    Scans (text.toList ++ rest) ((kind, text) :: ps) := by
  obtain ⟨c, cs, hchars⟩ := List.exists_cons_of_ne_nil h.ne_nil
  have hname : String.ofList (c :: cs) = text := by rw [← hchars, String.ofList_toList]
  rw [hchars] at h ⊢
  have hscans := cons h.isBlank_head h.oneLine (h.front hdelimited hcomment) hrest
  rwa [hname] at hscans

lemma mark (m : Mark) (hdelimited : Delimited rest) (hrest : Scans rest ps) :
    Scans (m.text.toList ++ rest) (m.piece :: ps) :=
  spelled (.mark m) (by simp) hdelimited hrest

/-- A mark that nothing goes on with needs no end. -/
lemma tight {m : Mark} (hm : Scan.single? c = some m) (hrest : Scans rest ps) :
    Scans (c :: rest) (m.piece :: ps) := by
  have htext := Scan.text_of_single? hm
  have hspelled : Spelled (.mark m) [c] := htext ▸ .mark m
  have hfront : Scan.front c ([] ++ rest) = .ok (.mark m, 1) := by simp [Scan.front, hm]
  have hname : String.ofList [c] = m.text := by rw [← htext, String.ofList_toList]
  have h := cons hspelled.isBlank_head hspelled.oneLine hfront hrest
  rwa [hname] at h

/-- Nor does an exclamation mark, unless an equals sign follows. -/
lemma bang (hhead : rest.head? ≠ some '=') (hrest : Scans rest ps) :
    Scans ('!' :: rest) (Mark.bang.piece :: ps) := by
  have hfront : Scan.front '!' ([] ++ rest) = .ok (.mark .bang, 1) := by
    simp [Scan.front, Scan.single?, Scan.paired?, hhead]
  exact cons rfl (by decide) hfront hrest

/-- What begins with an equals sign is read as a mark that does. -/
lemma head_of_equal (h : Scans ('=' :: rest) ps) :
    ps.head?.map Prod.fst = some (.mark .equal) ∨ ps.head?.map Prod.fst = some (.mark .equalEqual) := by
  obtain ⟨ts, hts, rfl⟩ := h.tokens 0 0 0
  have hfront : Scan.front '=' rest =
      .ok (if rest.head? = some '=' then (.mark .equalEqual, 2) else (.mark .equal, 1)) := rfl
  have hblank : isBlank '=' = false := rfl
  rw [Scan.tokens, if_neg (by simp [hblank]), hfront] at hts
  split at hts
  · cases hts
  · next kind length heq =>
    split at hts
    · cases hts
    · cases hts
      split at heq <;> cases heq
      · exact .inr rfl
      · exact .inl rfl

/-- **A text on one line is a source.** -/
theorem tokenize {text : String} (h : Scans text.toList ps) :
    ∃ ts, tokenize text = .ok ts ∧ ts.map Token.piece = ps := by
  obtain ⟨ts, hts, hpieces⟩ := h.tokens 1 0 0
  refine ⟨ts, ?_, hpieces⟩
  have hcontent := Text.content_of_oneLine h.oneLine
  unfold Shading.tokenize
  cases hchars : text.toList with
  | nil =>
    rw [hchars] at hts
    exact hts
  | cons c cs =>
    rw [← hchars, Text.lines_of_oneLine h.oneLine (by simp [hchars])]
    simp [Scanner.all, Scanner.line, hcontent, hts, Except.map]

end Scans

end Shading
