import Shading.Proofs.Token.Rescan

/-!
# Scanning step by step

A line is read in steps: a blank is passed, or the token at the front is taken.  What is read does not
depend on where the line stands, and a text is read line by line.

* `Scan.AtFront` — the tokens that may stand at the front;
* `Scan.Yields` — the steps by which a line is read;
* `Scan.tokens_eq_ok_iff` — a line is read in these steps and no others;
* `Text.line_induction`, `Scanner.all_cons_eq_ok` — a text is read line by line.
-/

namespace Shading

open Text (isBlank isWordStart isWordRest)

namespace Scan

variable {c : Char} {cs : List Char} {kind : Token.Kind} {n line offset column : Nat}
  {ts : List Token}

/-! ### One token -/

/-- The token that begins with `c` and goes on in `cs`, and its length, for each sort of token. -/
inductive AtFront : Char → List Char → Token.Kind → Nat → Prop
  | single {c : Char} {cs : List Char} {m : Mark} (h : single? c = some m) : AtFront c cs (.mark m) 1
  | withEqual {c : Char} {cs : List Char} {alone withEqual : Mark}
    (h : paired? c = some (alone, withEqual)) : AtFront c ('=' :: cs) (.mark withEqual) 2
  | alone {c : Char} {cs : List Char} {alone withEqual : Mark} (h : paired? c = some (alone, withEqual))
    (hcs : cs.head? ≠ some '=') : AtFront c cs (.mark alone) 1
  | comment {text : List Char} :
    AtFront '/' ('/' :: text) (.comment (String.ofList (Text.trim text))) (text.length + 2)
  | slash {cs : List Char} (hcs : cs.head? ≠ some '/') : AtFront '/' cs (.mark .slash) 1
  | string {cs : List Char} {kind : Token.Kind} {n : Nat} (h : string cs = .ok (kind, n)) :
    AtFront '"' cs kind n
  | number {c : Char} {cs : List Char} {kind : Token.Kind} {n : Nat} (hc : c.isDigit = true)
    (h : number (c :: cs) = (kind, n)) : AtFront c cs kind n
  | word {c : Char} {cs : List Char} {kind : Token.Kind} {n : Nat} (hc : StartsWord c cs)
    (h : word c cs = (kind, n)) : AtFront c cs kind n

/-- **There is no other token.** -/
theorem front_eq_ok_iff : front c cs = .ok (kind, n) ↔ AtFront c cs kind n := by
  constructor
  · intro h
    unfold front at h
    split at h
    · next hm =>
      cases h
      exact .single hm
    split at h
    · next hpaired =>
      split at h
      · next hhead =>
        cases h
        obtain ⟨rest, rfl⟩ := List.head?_eq_some_iff.1 hhead
        exact .withEqual hpaired
      · next hhead =>
        cases h
        exact .alone hpaired hhead
    split at h
    · next hslash =>
      subst hslash
      split at h
      · cases h
        rw [Nat.add_comm]
        exact .comment
      · next hother =>
        cases h
        refine .slash fun hhead => ?_
        obtain ⟨rest, rfl⟩ := List.head?_eq_some_iff.1 hhead
        exact hother rest rfl
    split at h
    · next hquote =>
      subst hquote
      exact .string h
    split at h
    · next hdigit => exact .number hdigit (Except.ok.inj h)
    split at h
    · next hstart => exact .word (.inl hstart) (Except.ok.inj h)
    split at h
    · next hhash => exact .word (.inr (by simpa using hhash)) (Except.ok.inj h)
    · cases h
  · intro h
    cases h with
    | single h => simp [front, h]
    | withEqual h =>
      unfold paired? at h
      split at h <;> cases h <;> rfl
    | alone h hcs =>
      unfold paired? at h
      split at h <;> cases h <;> simp [front, single?, paired?, hcs]
    | comment => simp [front, single?, paired?, Nat.add_comm]
    | slash hcs =>
      cases cs with
      | nil => rfl
      | cons d cs =>
        have hd : d ≠ '/' := by simpa using hcs
        simp [front, single?, paired?, hd]
    | string h => exact h
    | number hc h => rw [front_of_isDigit hc, h]
    | word hc h => rw [front_of_startsWord hc, h]

lemma number_le (h : c.isDigit = true) (cs : List Char) :
    1 ≤ (number (c :: cs)).2 ∧ (number (c :: cs)).2 ≤ cs.length + 1 := by
  have hsplit := congrArg List.length
    (List.takeWhile_append_dropWhile (p := Char.isDigit) (l := c :: cs))
  have hpos : 1 ≤ ((c :: cs).takeWhile Char.isDigit).length := by simp [h]
  unfold number
  dsimp only
  generalize (c :: cs).takeWhile Char.isDigit = whole at *
  generalize (c :: cs).dropWhile Char.isDigit = rest at *
  rw [List.length_append, List.length_cons] at hsplit
  split
  · omega
  · next hplaces =>
    unfold fraction at hplaces ⊢
    split at hplaces
    · next r =>
      have hle := (List.takeWhile_prefix (l := r) Char.isDigit).length_le
      rw [List.length_cons] at hsplit
      omega
    · exact absurd rfl hplaces

/-- A token has a character, and goes no further than its line. -/
lemma front_le (h : front c cs = .ok (kind, n)) : 1 ≤ n ∧ n ≤ cs.length + 1 := by
  cases front_eq_ok_iff.1 h with
  | single | alone | slash => omega
  | withEqual | comment => simp
  | string h =>
    unfold string at h
    dsimp only at h
    split at h
    · cases h
      omega
    · cases h
  | number hc h =>
    have hle := number_le hc cs
    rwa [h] at hle
  | word _ h =>
    have hle := (List.takeWhile_prefix (l := cs) isWordRest).length_le
    obtain ⟨-, rfl⟩ := Prod.mk.inj h
    omega

/-! ### Steps -/

/-- The characters from `column` on are read as these tokens: blanks are passed, and at any other
character the token that begins there is taken. -/
inductive Yields (line offset : Nat) : Nat → List Char → List Token → Prop
  | done {column : Nat} : Yields line offset column [] []
  | blank {column : Nat} {c : Char} {cs : List Char} {ts : List Token} (hc : isBlank c = true)
    (h : Yields line offset (column + 1) cs ts) : Yields line offset column (c :: cs) ts
  | token {column : Nat} {c : Char} {cs rest : List Char} {kind : Token.Kind} {ts : List Token}
    (hc : isBlank c = false) (hfront : front c (cs ++ rest) = .ok (kind, cs.length + 1))
    (h : Yields line offset (column + (cs.length + 1)) rest ts) :
    Yields line offset column (c :: (cs ++ rest))
      (⟨kind, ⟨offset + column, offset + column + (cs.length + 1), ⟨line, column + 1⟩⟩,
        String.ofList (c :: cs)⟩ :: ts)

/-- The characters of a token already read are passed first. -/
lemma yields_of_tokens {skip : Nat} (h : tokens line offset skip column cs = .ok ts) :
    Yields line offset (column + min skip cs.length) (cs.drop skip) ts := by
  induction cs generalizing skip column ts with
  | nil =>
    cases h
    simpa using .done
  | cons c cs ih =>
    cases skip with
    | succ skip =>
      have hyields := ih h
      rw [List.drop_succ_cons, List.length_cons]
      rwa [show column + min (skip + 1) (cs.length + 1) = column + 1 + min skip cs.length by omega]
    | zero =>
      rw [List.drop_zero, Nat.zero_min, Nat.add_zero]
      unfold tokens at h
      split at h
      · next hblank => exact .blank hblank (by simpa using ih h)
      · next hblank =>
        split at h
        · cases h
        · next kind length hfront =>
          obtain ⟨hpos, hle⟩ := front_le hfront
          obtain ⟨front, rest, rfl, rfl⟩ : ∃ front rest, cs = front ++ rest ∧ length = front.length + 1 :=
            ⟨cs.take (length - 1), cs.drop (length - 1), by simp, by simp; omega⟩
          split at h
          · cases h
          · next later hlater =>
            cases h
            have hyields := ih hlater
            rw [Nat.add_sub_cancel, List.drop_left, List.length_append,
              Nat.min_eq_left (Nat.le_add_right _ _), Nat.add_assoc, Nat.add_comm 1] at hyields
            rw [List.take_succ_cons, List.take_left]
            exact .token (by simpa using hblank) hfront hyields

/-- **A line is read in these steps and no others.** -/
theorem tokens_eq_ok_iff : tokens line offset 0 column cs = .ok ts ↔ Yields line offset column cs ts := by
  constructor
  · intro h
    simpa using yields_of_tokens h
  · intro h
    induction h with
    | done => rfl
    | blank hc _ ih => rw [tokens, if_pos hc, ih]
    | @token column c cs rest kind ts hc hfront _ ih =>
      have hskip : tokens line offset cs.length (column + 1) (cs ++ rest) = .ok ts := by
        rw [tokens_skip, List.drop_left, List.length_append, Nat.min_eq_left (Nat.le_add_right _ _),
          Nat.add_assoc, Nat.add_comm 1, ih]
      simp [tokens, hc, hfront, hskip]

end Scan

/-! ### Lines -/

namespace Text

lemma lines_append_cons {line : List Char} (h : '\n' ∉ line) (rest : List Char) :
    lines (line ++ '\n' :: rest) = (line ++ ['\n']) :: lines rest :=
  splitAfter_append_cons (forall_ne_lineFeed.2 h) (by rfl) rest

/-- A text is read line by line: the last line may have no line feed. -/
lemma line_induction {P : List Char → Prop} (nil : P [])
    (last : ∀ line, '\n' ∉ line → line ≠ [] → P line)
    (cons : ∀ line rest, '\n' ∉ line → P rest → P (line ++ '\n' :: rest)) (text : List Char) :
    P text := by
  refine piece_induction (· == '\n') nil (fun line h => last line (forall_ne_lineFeed.1 h)) ?_ text
  intro line c rest h hc hrest
  obtain rfl : c = '\n' := by simpa using hc
  exact cons line rest (forall_ne_lineFeed.1 h) hrest

end Text

namespace Scanner

variable {s : Scanner} {text : List Char} {texts : List (List Char)} {ts : List Token}

/-- The first line, and the lines behind it. -/
lemma all_cons_eq_ok : s.all (text :: texts) = .ok ts ↔
    ∃ first later, Scan.Yields (s.lines + 1) s.offset 0 (Text.content text) first ∧
      all ⟨s.lines + 1, s.offset + text.length⟩ texts = .ok later ∧ ts = first ++ later := by
  rw [all, line]
  cases hfirst : Scan.tokens (s.lines + 1) s.offset 0 0 (Text.content text) with
  | error fault => simp [← Scan.tokens_eq_ok_iff, hfirst]
  | ok first =>
    cases hlater : all ⟨s.lines + 1, s.offset + text.length⟩ texts with
    | error fault => simp [← Scan.tokens_eq_ok_iff, hfirst, hlater, Except.map]
    | ok later => simp [← Scan.tokens_eq_ok_iff, hfirst, hlater, Except.map, eq_comm]

end Scanner

end Shading
