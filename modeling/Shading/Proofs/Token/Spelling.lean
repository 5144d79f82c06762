import Mathlib.Data.List.TakeWhile
import Shading.Proofs.Decimal.ReadBack

/-!
# How tokens are spelled

The characters that a token is read from, for each kind of token: the texts of marks, the digits of a
number, a string without quotes inside, words, and comments.

* `Spelled` — the characters of a token of each kind;
* `Scan.spelled_front` — nothing else is read at the front of a line;
* `Token.spelled_of_tokenize` — every token of a source is spelled as what it is.
-/

namespace Shading

open Text (isBlank isWordStart isWordRest)

/-! ### Characters -/

lemma eq_false_of_codes {q : Char → Bool} {codes : List Nat}
    (h : ∀ n ∈ codes, q (Char.ofNat n) = false) {c : Char} (hc : c.toNat ∈ codes) : q c = false := by
  have hq := h c.toNat hc
  rwa [Char.ofNat_toNat] at hq

lemma isDigit_of_isWordStart {c : Char} (h : isWordStart c = true) : c.isDigit = false := by
  have hcodes : ∀ n ∈ [48, 49, 50, 51, 52, 53, 54, 55, 56, 57], isWordStart (Char.ofNat n) = false := by
    decide +kernel
  by_contra hdigit
  suffices hc : isWordStart c = false by simp [h] at hc
  refine eq_false_of_codes hcodes ?_
  obtain ⟨hlow, hhigh⟩ : 48 ≤ c.toNat ∧ c.toNat ≤ 57 := Char.isDigit_iff_toNat.1 (by simpa using hdigit)
  simp only [List.mem_cons, List.not_mem_nil, or_false]
  omega

lemma take_takeWhile {p : Char → Bool} {xs : List Char} :
    xs.take (xs.takeWhile p).length = xs.takeWhile p :=
  (List.prefix_iff_eq_take.1 (List.takeWhile_prefix p)).symm

/-! ### Tokens -/

/-- A word begins with a letter or an underscore, or with a hash before one. -/
def StartsWord (c : Char) (cs : List Char) : Prop :=
  isWordStart c = true ∨ c = '#' ∧ cs.head?.any isWordStart = true

/-- What a word is. -/
def wordKind (text : String) : Token.Kind := (Keyword.ofText? text).elim (.identifier text) .keyword

lemma wordKind_cases (text : String) :
    wordKind text = .identifier text ∨ ∃ k, wordKind text = .keyword k := by
  unfold wordKind
  cases Keyword.ofText? text with
  | none => exact .inl rfl
  | some k => exact .inr ⟨k, rfl⟩

/-- The characters of a token of each kind. -/
inductive Spelled : Token.Kind → List Char → Prop
  | mark (m : Mark) : Spelled (.mark m) m.text.toList
  | number {cs : List Char} {x : Double} {fractional : Bool} (h : Written cs x fractional) :
    Spelled (.number x) cs
  | string {cs : List Char} (hquote : '"' ∉ cs) (hline : '\n' ∉ cs) :
    Spelled (.string (String.ofList cs)) ('"' :: (cs ++ ['"']))
  | word {c : Char} {cs : List Char} (hstart : StartsWord c cs) (hrest : ∀ d ∈ cs, isWordRest d = true) :
    Spelled (wordKind (String.ofList (c :: cs))) (c :: cs)
  | comment {cs : List Char} (hline : '\n' ∉ cs) :
    Spelled (.comment (String.ofList (Text.trim cs))) ('/' :: '/' :: cs)

namespace Spelled

variable {cs : List Char}

lemma written {x : Double} (h : Spelled (.number x) cs) : ∃ fractional, Written cs x fractional := by
  generalize hkind : Token.Kind.number x = kind at h
  cases h with
  | number h =>
    cases hkind
    exact ⟨_, h⟩
  | @word c cs =>
    rcases wordKind_cases (String.ofList (c :: cs)) with hword | ⟨k, hword⟩ <;> rw [hword] at hkind <;>
      cases hkind
  | _ => cases hkind

lemma not_mem_string {text : String} (h : Spelled (.string text) cs) :
    '"' ∉ text.toList ∧ '\n' ∉ text.toList := by
  generalize hkind : Token.Kind.string text = kind at h
  cases h with
  | string hquote hline =>
    cases hkind
    rw [String.toList_ofList]
    exact ⟨hquote, hline⟩
  | @word c cs =>
    rcases wordKind_cases (String.ofList (c :: cs)) with hword | ⟨k, hword⟩ <;> rw [hword] at hkind <;>
      cases hkind
  | _ => cases hkind

lemma identifier {name : String} (h : Spelled (.identifier name) cs) :
    Spelled (.identifier name) name.toList := by
  generalize hkind : Token.Kind.identifier name = kind at h ⊢
  cases h with
  | @word c cs hstart hrest =>
    rcases wordKind_cases (String.ofList (c :: cs)) with hword | ⟨k, hword⟩ <;> rw [hword] at hkind <;>
      cases hkind
    rw [String.toList_ofList]
    exact .word hstart hrest
  | _ => cases hkind

end Spelled

namespace Scan

variable {c : Char} {cs : List Char} {kind : Token.Kind} {n : Nat}

/-! #### Reading one token -/

/-- The characters that begin a mark, a comment or a string. -/
def markStarts : List Char :=
  ['(', ')', '\x7b', '\x7d', '[', ']', ',', '.', ':', ';', '-', '+', '*', '!', '=', '<', '>', '/', '"']

lemma unmarked {q : Char → Bool} (h : markStarts.any q = false) (hc : q c = true) :
    single? c = none ∧ paired? c = none ∧ c ≠ '/' ∧ c ≠ '"' := by
  have hne : c ∉ markStarts := fun hmem => List.any_eq_false.1 h c hmem hc
  simp only [markStarts, List.mem_cons, not_or] at hne
  refine ⟨?_, ?_, by tauto, by tauto⟩
  · unfold single?
    split <;> first | rfl | tauto
  · unfold paired?
    split <;> first | rfl | tauto

lemma front_of_isDigit (h : c.isDigit = true) : front c cs = .ok (number (c :: cs)) := by
  obtain ⟨hsingle, hpaired, hslash, hquote⟩ := unmarked (q := Char.isDigit) (by rfl) h
  simp [front, hsingle, hpaired, hslash, hquote, h]

lemma front_of_startsWord (h : StartsWord c cs) : front c cs = .ok (word c cs) := by
  rcases h with h | ⟨rfl, h⟩
  · obtain ⟨hsingle, hpaired, hslash, hquote⟩ := unmarked (q := isWordStart) (by decide +kernel) h
    simp [front, hsingle, hpaired, hslash, hquote, isDigit_of_isWordStart h, h]
  · have hhash : isWordStart '#' = false := by decide +kernel
    simp [front, single?, paired?, hhash, h]

lemma text_of_single? {m : Mark} (h : single? c = some m) : m.text.toList = [c] := by
  unfold single? at h
  split at h <;> cases h <;> rfl

lemma text_of_paired? {alone withEqual : Mark} (h : paired? c = some (alone, withEqual)) :
    alone.text.toList = [c] ∧ withEqual.text.toList = [c, '='] := by
  unfold paired? at h
  split at h <;> cases h <;> exact ⟨rfl, rfl⟩

/-- **Digits are read as a number they write.** -/
lemma written_number (cs : List Char) (h : c.isDigit = true) :
    ∃ x fractional, (number (c :: cs)).1 = .number x ∧
      Written ((c :: cs).take (number (c :: cs)).2) x fractional := by
  have hsplit : (c :: cs).takeWhile Char.isDigit ++ (c :: cs).dropWhile Char.isDigit = c :: cs :=
    List.takeWhile_append_dropWhile
  have hne : (c :: cs).takeWhile Char.isDigit ≠ [] := by simp [h]
  have hdigits : ∀ d ∈ (c :: cs).takeWhile Char.isDigit, d.isDigit = true := fun _ hd =>
    List.mem_takeWhile_imp hd
  unfold number
  dsimp only
  generalize (c :: cs).takeWhile Char.isDigit = whole at *
  generalize (c :: cs).dropWhile Char.isDigit = rest at *
  rw [← hsplit]
  by_cases hplaces : fraction rest = []
  · refine ⟨_, false, rfl, ?_⟩
    rw [hplaces]
    simpa using Written.whole hne hdigits
  · refine ⟨_, true, rfl, ?_⟩
    obtain ⟨r, rfl⟩ : ∃ r, rest = '.' :: r := by
      unfold fraction at hplaces
      split at hplaces
      · next r => exact ⟨r, rfl⟩
      · exact absurd rfl hplaces
    have htake : (whole ++ '.' :: r).take (whole.length + 1 + (fraction ('.' :: r)).length) =
        whole ++ '.' :: fraction ('.' :: r) := by
      rw [Nat.add_assoc, List.take_length_add_append, Nat.add_comm 1, List.take_succ_cons]
      exact congrArg (whole ++ '.' :: ·) take_takeWhile
    rw [if_neg (by simpa using hplaces), htake]
    refine .places hne hplaces (List.forall_mem_append.2 ⟨hdigits, fun d hd => ?_⟩)
    exact List.mem_takeWhile_imp hd

lemma spelled_word (h : StartsWord c cs) : Spelled (word c cs).1 ((c :: cs).take (word c cs).2) := by
  unfold word
  dsimp only
  rw [Nat.add_comm 1, List.take_succ_cons, take_takeWhile]
  refine .word ?_ fun d hd => List.mem_takeWhile_imp hd
  refine h.imp_right fun ⟨hc, hhead⟩ => ⟨hc, ?_⟩
  cases cs with
  | nil => cases hhead
  | cons d cs =>
    have hd : isWordStart d = true := by simpa using hhead
    simp [Text.isWordRest_of_isWordStart hd, hd]

/-- A string, closed on its line. -/
lemma spelled_string (hline : '\n' ∉ cs) (h : string cs = .ok (kind, n)) :
    Spelled kind (('"' :: cs).take n) := by
  unfold string at h
  dsimp only at h
  split at h
  · next hclosed =>
    cases h
    have hsplit : cs.takeWhile (· != '"') ++ cs.dropWhile (· != '"') = cs :=
      List.takeWhile_append_dropWhile
    have hquote : '"' ∉ cs.takeWhile (· != '"') := fun hmem => by
      have := List.mem_takeWhile_imp hmem
      simp at this
    have hprefix : '\n' ∉ cs.takeWhile (· != '"') := fun hmem =>
      hline ((List.takeWhile_prefix _).subset hmem)
    have hhead := List.head?_dropWhile_not (· != '"') cs
    generalize cs.takeWhile (· != '"') = text at *
    cases hrest : cs.dropWhile (· != '"') with
    | nil =>
      rw [hrest, List.append_nil] at hsplit
      rw [hsplit] at hclosed
      exact absurd hclosed (Nat.lt_irrefl _)
    | cons d rest =>
      rw [hrest] at hsplit hhead
      obtain rfl : d = '"' := by simpa using hhead
      rw [← hsplit, List.take_succ_cons, List.take_length_add_append]
      exact .string hquote hprefix
  · cases h

/-- **What is read is spelled.** -/
theorem spelled_front (hline : '\n' ∉ cs) (h : front c cs = .ok (kind, n)) :
    Spelled kind ((c :: cs).take n) := by
  unfold front at h
  split at h
  · next m hm =>
    cases h
    rw [List.take_succ_cons, List.take_zero, ← text_of_single? hm]
    exact .mark m
  split at h
  · next alone withEqual hp =>
    obtain ⟨halone, hwith⟩ := text_of_paired? hp
    split at h
    · next hhead =>
      cases h
      obtain ⟨rest, rfl⟩ := List.head?_eq_some_iff.1 hhead
      rw [List.take_succ_cons, List.take_succ_cons, List.take_zero, ← hwith]
      exact .mark withEqual
    · cases h
      rw [List.take_succ_cons, List.take_zero, ← halone]
      exact .mark alone
  split at h
  · next hslash =>
    subst hslash
    split at h
    · next text =>
      cases h
      rw [List.take_of_length_le (by simp; omega)]
      exact .comment fun hmem => hline (List.mem_cons_of_mem _ hmem)
    · cases h
      exact .mark .slash
  split at h
  · next hquote =>
    subst hquote
    exact spelled_string hline h
  split at h
  · next hdigit =>
    obtain ⟨x, fractional, hx, hwritten⟩ := written_number cs hdigit
    have hkind : (number (c :: cs)).1 = kind := congrArg Prod.fst (Except.ok.inj h)
    have hlength : (number (c :: cs)).2 = n := congrArg Prod.snd (Except.ok.inj h)
    rw [hlength] at hwritten
    rw [← hkind, hx]
    exact .number hwritten
  split at h
  · next hstart =>
    cases h
    exact spelled_word (.inl hstart)
  split at h
  · next hhash =>
    cases h
    exact spelled_word (.inr (by simpa using hhash))
  · cases h

end Scan

/-! ### Lines and sources -/

lemma Scan.spelled_tokens {line offset skip column : Nat} {cs : List Char} {ts : List Token}
    (hline : '\n' ∉ cs) (h : tokens line offset skip column cs = .ok ts) :
    ∀ t ∈ ts, Spelled t.kind t.lexeme.toList := by
  induction cs generalizing skip column ts with
  | nil =>
    cases h
    simp
  | cons c cs ih =>
    have hline' : '\n' ∉ cs := fun hmem => hline (List.mem_cons_of_mem _ hmem)
    cases skip with
    | succ skip => exact ih hline' h
    | zero =>
      unfold tokens at h
      split at h
      · exact ih hline' h
      · split at h
        · cases h
        · next kind length hfront =>
          split at h
          · cases h
          · next later hlater =>
            cases h
            refine List.forall_mem_cons.2 ⟨?_, ih hline' hlater⟩
            rw [String.toList_ofList]
            exact spelled_front hline' hfront

namespace Text

/-- Only the last character of a line ends it. -/
lemma not_mem_dropLast_of_mem_lines {cs line : List Char} (h : line ∈ lines cs) :
    '\n' ∉ line.dropLast := by
  unfold lines at h
  induction cs generalizing line with
  | nil => cases h
  | cons c cs ih =>
    unfold splitAfter at h
    split at h
    · rcases List.mem_cons.1 h with rfl | h
      · simp
      · exact ih h
    · next hc =>
      split at h
      · obtain rfl := List.mem_singleton.1 h
        simp
      · next piece pieces hpieces =>
        rcases List.mem_cons.1 h with rfl | h
        · have hpiece := ih (hpieces ▸ List.mem_cons_self)
          cases piece with
          | nil => simp
          | cons d piece =>
            rw [List.dropLast_cons_cons, List.mem_cons, not_or]
            exact ⟨fun heq => hc (beq_iff_eq.2 heq.symm), hpiece⟩
        · exact ih (hpieces ▸ List.mem_cons_of_mem _ h)

lemma not_mem_content {line : List Char} (h : '\n' ∉ line.dropLast) : '\n' ∉ content line := by
  have hlast : ∀ {d : Char} {rest : List Char}, line.reverse = d :: rest → line = rest.reverse ++ [d] :=
    fun hrev => by rw [← List.reverse_reverse line, hrev, List.reverse_cons]
  unfold content
  split
  · next rest hrev =>
    rw [hlast hrev, List.dropLast_concat, List.reverse_cons] at h
    exact fun hmem => h (List.mem_append_left _ hmem)
  · next rest _ hrev =>
    rwa [hlast hrev, List.dropLast_concat] at h
  · next hopen =>
    cases hrev : line.reverse with
    | nil => simp [List.reverse_eq_nil_iff.1 hrev]
    | cons d rest =>
      rw [hlast hrev, List.dropLast_concat] at h
      have hd : '\n' ≠ d := fun heq => hopen rest (heq ▸ hrev)
      rw [hlast hrev, List.mem_append, List.mem_singleton, not_or]
      exact ⟨h, hd⟩

end Text

lemma Scanner.spelled_all {s : Scanner} {texts : List (List Char)} {ts : List Token}
    (hlines : ∀ text ∈ texts, '\n' ∉ Text.content text) (h : s.all texts = .ok ts) :
    ∀ t ∈ ts, Spelled t.kind t.lexeme.toList := by
  induction texts generalizing s ts with
  | nil =>
    cases h
    simp
  | cons text texts ih =>
    obtain ⟨hline, hlines⟩ := List.forall_mem_cons.1 hlines
    unfold all line at h
    cases htokens : Scan.tokens (s.lines + 1) s.offset 0 0 (Text.content text) with
    | error fault => simp [htokens] at h
    | ok first =>
      cases hall : all ⟨s.lines + 1, s.offset + text.length⟩ texts with
      | error fault => simp [htokens, hall, Except.map] at h
      | ok later =>
        obtain rfl : first ++ later = ts := by simpa [htokens, hall, Except.map] using h
        exact List.forall_mem_append.2 ⟨Scan.spelled_tokens hline htokens, ih hlines hall⟩

/-- **Every token of a source is spelled as what it is.** -/
theorem Token.spelled_of_tokenize {source : String} {ts : List Token} (h : tokenize source = .ok ts) :
    ∀ t ∈ ts, Spelled t.kind t.lexeme.toList := by
  refine Scanner.spelled_all (fun text htext => ?_) h
  exact Text.not_mem_content (Text.not_mem_dropLast_of_mem_lines htext)

end Shading
