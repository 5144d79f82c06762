import Shading.Proofs.Grammar.Parsed

/-!
# The languages of rules

A rule accepts a language when it reads just the tokens of the language, each list of them to the
value that the language gives it, and when it leaves off only before what may follow.  Rules that
are put together accept the languages put together.

* `Cursor.Passes` — the tokens between two places;
* `Rule.Accepts` — the rule reads the tokens of a language and no others;
* `Accepts.bind`, `accepts_closed`, `accepts_enclosed` — one rule behind another, a mark behind one, and
  a loop between two marks;
* `Listed`, `accepts_parenthesised` — elements in parentheses, in which a comma may stand behind the
  last.
-/

namespace Shading

open Grammar

/-! ### Tokens between two places -/

/-- From `c` to `c'` these tokens are passed. -/
def Grammar.Cursor.Passes (c : Cursor) : List Token → Cursor → Prop
  | [], c' => c' = c
  | t :: ts, c' => c.rest.head? = some t ∧ c.advance.Passes ts c'

namespace Grammar.Cursor

variable {c c' : Cursor} {t : Token} {ts us vs : List Token}

@[simp] lemma passes_nil : c.Passes [] c' ↔ c' = c := Iff.rfl

lemma advance_cons (t : Token) (rest : List Token) (last : Position) :
    (⟨t :: rest, last⟩ : Cursor).advance = ⟨rest, t.position⟩ := rfl

/-- The first of the tokens stands next. -/
lemma passes_cons : c.Passes (t :: ts) c' ↔
    ∃ rest, c.rest = t :: rest ∧ Passes ⟨rest, t.position⟩ ts c' := by
  obtain ⟨tokens, last⟩ := c
  cases tokens with
  | nil => simp [Passes]
  | cons u rest =>
    rw [Passes, advance_cons]
    constructor
    · rintro ⟨ht, hts⟩
      obtain rfl : u = t := Option.some.inj ht
      exact ⟨rest, rfl, hts⟩
    · rintro ⟨_, heq, hts⟩
      obtain ⟨rfl, rfl⟩ := List.cons.inj heq
      exact ⟨rfl, hts⟩

lemma passes_append : c.Passes (us ++ vs) c' ↔ ∃ c₁, c.Passes us c₁ ∧ c₁.Passes vs c' := by
  induction us generalizing c with
  | nil => simp
  | cons t us ih =>
    rw [List.cons_append, Passes, ih]
    constructor
    · rintro ⟨ht, c₁, hus, hvs⟩
      exact ⟨c₁, ⟨ht, hus⟩, hvs⟩
    · rintro ⟨c₁, ⟨ht, hus⟩, hvs⟩
      exact ⟨ht, c₁, hus, hvs⟩

lemma Passes.rest_eq (h : c.Passes ts c') : c.rest = ts ++ c'.rest := by
  induction ts generalizing c with
  | nil => rw [passes_nil.1 h, List.nil_append]
  | cons t ts ih =>
    obtain ⟨rest, hrest, hts⟩ := passes_cons.1 h
    rw [hrest, List.cons_append, ← ih hts]

/-- The tokens at the front can be passed. -/
lemma exists_passes {rest : List Token} (h : c.rest = ts ++ rest) :
    ∃ last, c.Passes ts ⟨rest, last⟩ := by
  induction ts generalizing c with
  | nil => exact ⟨c.last, by rw [passes_nil, ← List.nil_append rest, ← h]⟩
  | cons t ts ih =>
    obtain ⟨last, hlast⟩ := ih (c := ⟨ts ++ rest, t.position⟩) rfl
    exact ⟨last, passes_cons.2 ⟨_, h, hlast⟩⟩

lemma next?_of_rest {rest : List Token} (h : c.rest = t :: rest) : c.next? = some t.kind := by
  simp [next?, h]

lemma Passes.next? (h : c.Passes (t :: ts) c') : c.next? = some t.kind := by
  unfold Cursor.next?
  rw [h.1]
  rfl

end Grammar.Cursor

/-! ### Languages -/

namespace Rule

variable {α β : Type} {r : Rule α} {k : α → Rule β} {c c' : Cursor} {a : α}

/-- The rule reads the tokens of the language `L`, and no others, before what `F` says may follow. -/
def Accepts (r : Rule α) (L : List Token → α → Prop) (F : List Token → Prop) : Prop :=
  ∀ c a c', r c = .ok (a, c') ↔ ∃ ts, c.Passes ts c' ∧ L ts a ∧ F c'.rest

/-- Anything may follow. -/
def anything (_ : List Token) : Prop := True

namespace Accepts

variable {L L' : List Token → α → Prop} {M : α → List Token → β → Prop} {F G : List Token → Prop}

lemma congr (h : Accepts r L F) (hL : ∀ ts a, L ts a ↔ L' ts a) : Accepts r L' F := by
  intro c a c'
  rw [h c a c']
  simp only [hL]

lemma pure (a : α) : Accepts (pure a) (fun ts b => ts = [] ∧ b = a) anything := by
  intro c b c'
  have hpure : (Pure.pure a : Rule α) c = .ok (a, c) := rfl
  rw [hpure]
  constructor
  · intro h
    obtain ⟨rfl, rfl⟩ := Prod.mk.inj (Except.ok.inj h)
    exact ⟨[], rfl, ⟨rfl, rfl⟩, trivial⟩
  · rintro ⟨_, hpasses, ⟨rfl, rfl⟩, -⟩
    rw [Cursor.passes_nil.1 hpasses]

/-- **One rule behind another.**  What the second reads must be something that may follow the first. -/
lemma bind (hr : Accepts r L F) (hk : ∀ a, Accepts (k a) (M a) G)
    (hF : ∀ us a vs b rest, L us a → M a vs b → G rest → F (vs ++ rest)) :
    Accepts (r >>= k) (fun ts b => ∃ us vs a, ts = us ++ vs ∧ L us a ∧ M a vs b) G := by
  intro c b c'
  rw [bind_eq_ok]
  constructor
  · rintro ⟨a, c₁, ha, hb⟩
    obtain ⟨us, hus, hL, -⟩ := (hr c a c₁).1 ha
    obtain ⟨vs, hvs, hM, hG⟩ := (hk a c₁ b c').1 hb
    exact ⟨us ++ vs, Cursor.passes_append.2 ⟨c₁, hus, hvs⟩, ⟨us, vs, a, rfl, hL, hM⟩, hG⟩
  · rintro ⟨_, hpasses, ⟨us, vs, a, rfl, hL, hM⟩, hG⟩
    obtain ⟨c₁, hus, hvs⟩ := Cursor.passes_append.1 hpasses
    refine ⟨a, c₁, (hr c a c₁).2 ⟨us, hus, hL, ?_⟩, (hk a c₁ b c').2 ⟨vs, hvs, hM, hG⟩⟩
    rw [hvs.rest_eq]
    exact hF us a vs b c'.rest hL hM hG

/-- Behind a rule that anything may follow. -/
lemma andThen (hr : Accepts r L anything) (hk : ∀ a, Accepts (k a) (M a) G) :
    Accepts (r >>= k) (fun ts b => ∃ us vs a, ts = us ++ vs ∧ L us a ∧ M a vs b) G :=
  hr.bind hk fun _ _ _ _ _ _ _ _ => trivial

/-- Something made of what a rule reads. -/
lemma map (hr : Accepts r L F) (f : α → β) :
    Accepts (do return f (← r)) (fun ts b => ∃ a, L ts a ∧ b = f a) F := by
  intro c b c'
  rw [bind_eq_ok]
  constructor
  · rintro ⟨a, c₁, ha, hb⟩
    obtain ⟨rfl, rfl⟩ := Prod.mk.inj (Except.ok.inj hb)
    obtain ⟨ts, hpasses, hL, hF⟩ := (hr c a c₁).1 ha
    exact ⟨ts, hpasses, ⟨a, hL, rfl⟩, hF⟩
  · rintro ⟨ts, hpasses, ⟨a, hL, rfl⟩, hF⟩
    exact ⟨a, c', (hr c a c').2 ⟨ts, hpasses, hL, hF⟩, rfl⟩

end Accepts

/-! ### Rules for one token -/

lemma stop_ne_ok {cause : Cause} : (stop cause : Rule α) c ≠ .ok (a, c') := by
  simp [stop]

/-- A rule that always stops accepts the empty language. -/
lemma accepts_stop {L : List Token → α → Prop} {F : List Token → Prop} (cause : Cause)
    (hL : ∀ ts a, ¬ L ts a) : Accepts (stop cause) L F := by
  intro c a c'
  constructor
  · intro h
    exact absurd h stop_ne_ok
  · rintro ⟨ts, -, h, -⟩
    exact absurd h (hL ts a)

lemma peek_bind (k : Option Token.Kind → Rule β) (c : Cursor) : (peek >>= k) c = k c.next? c := rfl

lemma peekSecond_bind (k : Option Token.Kind → Rule β) (c : Cursor) :
    (peekSecond >>= k) c = k c.second? c := rfl

lemma peekToken_bind (k : Option Token → Rule β) (c : Cursor) :
    (peekToken >>= k) c = k c.rest.head? c := rfl

lemma remaining_bind (k : Nat → Rule β) (c : Cursor) : (remaining >>= k) c = k c.rest.length c := rfl

lemma advance_bind (k : Unit → Rule β) (c : Cursor) : (advance >>= k) c = k () c.advance := rfl

/-- A rule that passes the next token if it is one of the language, and otherwise stops. -/
lemma accepts_token {L : Token → α → Prop} (hnil : ∀ last a c', r ⟨[], last⟩ ≠ .ok (a, c'))
    (hcons : ∀ t rest last a c', r ⟨t :: rest, last⟩ = .ok (a, c') ↔ L t a ∧ c' = ⟨rest, t.position⟩) :
    Accepts r (fun ts a => ∃ t, ts = [t] ∧ L t a) anything := by
  rintro ⟨_ | ⟨t, rest⟩, last⟩ a c'
  · constructor
    · intro h
      exact absurd h (hnil last a c')
    · rintro ⟨_, hpasses, ⟨t, rfl, -⟩, -⟩
      obtain ⟨_, hrest, -⟩ := Cursor.passes_cons.1 hpasses
      cases hrest
  · rw [hcons]
    constructor
    · rintro ⟨hL, rfl⟩
      exact ⟨[t], Cursor.passes_cons.2 ⟨rest, rfl, rfl⟩, ⟨t, rfl, hL⟩, trivial⟩
    · rintro ⟨_, hpasses, ⟨u, rfl, hL⟩, -⟩
      obtain ⟨_, hrest, hlast⟩ := Cursor.passes_cons.1 hpasses
      obtain ⟨rfl, rfl⟩ := List.cons.inj hrest
      exact ⟨hL, hlast⟩

lemma accepts_expect (m : Mark) :
    Accepts (expect m) (fun ts _ => ∃ t, ts = [t] ∧ t.kind = .mark m) anything := by
  refine accepts_token ?_ ?_
  · intro last a c'
    exact stop_ne_ok
  · intro t rest last a c'
    rw [expect, peek_bind, Cursor.next?_of_rest rfl]
    split
    · next h =>
      have hkind : t.kind = .mark m := Option.some.inj h
      simp [advance, Cursor.advance_cons, hkind, eq_comm]
    · next h =>
      have hkind : t.kind ≠ .mark m := fun hkind => h (by rw [hkind])
      simp [stop, hkind]

/-- What a rule reads, and a mark behind it. -/
lemma accepts_closed {L : List Token → α → Prop} {F : List Token → Prop} {m : Mark}
    (hr : Accepts r L F) (hm : ∀ (t : Token) rest, t.kind = .mark m → F (t :: rest)) (k : α → β) :
    Accepts (do let inside ← r; expect m; return k inside)
      (fun ts b => ∃ us closing inside, ts = us ++ [closing] ∧ L us inside ∧
        closing.kind = .mark m ∧ b = k inside) anything := by
  refine (hr.bind (fun inside => (accepts_expect m).andThen fun _ => .pure (k inside)) ?_).congr ?_
  · rintro us inside _ _ rest - ⟨_, _, -, rfl, ⟨t, rfl, ht⟩, rfl, -⟩ -
    exact hm t rest ht
  · intro ts b
    constructor
    · rintro ⟨us, _, inside, rfl, hL, _, _, -, rfl, ⟨closing, rfl, hc⟩, rfl, rfl⟩
      exact ⟨us, closing, inside, by simp, hL, hc, rfl⟩
    · rintro ⟨us, closing, inside, rfl, hL, hc, rfl⟩
      exact ⟨us, [closing], inside, rfl, hL, [closing], [], (), by simp, ⟨closing, rfl, hc⟩, rfl, rfl⟩

lemma accepts_identifier :
    Accepts identifier (fun ts name => ∃ t, ts = [t] ∧ t.kind = .identifier name) anything := by
  refine accepts_token ?_ ?_
  · intro last a c'
    exact stop_ne_ok
  · intro t rest last a c'
    rw [identifier, peek_bind, Cursor.next?_of_rest rfl]
    cases hkind : t.kind with
    | identifier name =>
      show (.ok (name, ⟨rest, t.position⟩) : Except Fault (String × Cursor)) = _ ↔ _
      simp [eq_comm]
    | _ => simp [stop]

/-- **A loop between two marks.**  What the loop reads is in the language, and before the closing mark
the loop reads all of the language, when its bound is above the number of tokens left. -/
theorem accepts_enclosed {loop : Nat → Rule α} {L : List Token → α → Prop} (opening closing : Mark)
    (hsound : ∀ {n c a c'}, loop n c = .ok (a, c') → ∃ ts, c.Passes ts c' ∧ L ts a)
    (hcomplete : ∀ {n c ts a c'}, c.rest.length < n → c'.next? = some (.mark closing) →
      c.Passes ts c' → L ts a → loop n c = .ok (a, c')) :
    Accepts (do
        expect opening
        let inside ← loop ((← remaining) + 1)
        expect closing
        return inside)
      (fun ts a => ∃ t us u, ts = t :: (us ++ [u]) ∧ t.kind = .mark opening ∧ u.kind = .mark closing ∧
        L us a) anything := by
  intro c a c'
  constructor
  · intro h
    obtain ⟨⟨⟩, c₁, hopen, h⟩ := bind_eq_ok.1 h
    rw [remaining_bind] at h
    obtain ⟨inside, c₂, hinside, h⟩ := bind_eq_ok.1 h
    obtain ⟨⟨⟩, c₃, hclose, h⟩ := bind_eq_ok.1 h
    obtain ⟨rfl, rfl⟩ := Prod.mk.inj (Except.ok.inj h)
    obtain ⟨_, hpasses₁, ⟨t, rfl, ht⟩, -⟩ := (accepts_expect _ c _ c₁).1 hopen
    obtain ⟨us, hus, hL⟩ := hsound hinside
    obtain ⟨_, hpasses₃, ⟨u, rfl, hu⟩, -⟩ := (accepts_expect _ c₂ _ c₃).1 hclose
    refine ⟨t :: (us ++ [u]), ?_, ⟨t, us, u, rfl, ht, hu, hL⟩, trivial⟩
    rw [← List.singleton_append]
    exact Cursor.passes_append.2 ⟨c₁, hpasses₁, Cursor.passes_append.2 ⟨c₂, hus, hpasses₃⟩⟩
  · rintro ⟨_, hpasses, ⟨t, us, u, rfl, ht, hu, hL⟩, -⟩
    rw [← List.singleton_append] at hpasses
    obtain ⟨c₁, hpasses₁, hpasses⟩ := Cursor.passes_append.1 hpasses
    obtain ⟨c₂, hus, hpasses₃⟩ := Cursor.passes_append.1 hpasses
    have hopen : expect opening c = .ok ((), c₁) :=
      (accepts_expect _ c _ c₁).2 ⟨_, hpasses₁, ⟨t, rfl, ht⟩, trivial⟩
    have hclose : expect closing c₂ = .ok ((), c') :=
      (accepts_expect _ c₂ _ c').2 ⟨_, hpasses₃, ⟨u, rfl, hu⟩, trivial⟩
    have hinside := hcomplete (Nat.lt_succ_self c₁.rest.length) (by rw [hpasses₃.next?, hu]) hus hL
    refine bind_eq_ok.2 ⟨(), c₁, hopen, ?_⟩
    rw [remaining_bind]
    exact bind_eq_ok.2 ⟨a, c₂, hinside, bind_eq_ok.2 ⟨(), c', hclose, rfl⟩⟩

end Rule

/-! ### Lists in parentheses -/

/-- The tokens of elements, each with its own: commas stand between them, and one may stand behind
the last. -/
inductive Listed {α : Type} : List Token → List (List Token × α) → Prop
  | none : Listed [] []
  | last {ts : List Token} {a : α} : Listed ts [(ts, a)]
  | comma {ts us : List Token} {comma : Token} {a : α} {elements : List (List Token × α)}
    (hc : comma.kind = .mark .comma) (h : Listed us elements) :
    Listed (ts ++ comma :: us) ((ts, a) :: elements)

namespace Rule

variable {α : Type} {r : Rule α} {L : List Token → α → Prop} {F : List Token → Prop}

/-- The tokens of elements of a language, in parentheses. -/
def Parenthesised (L : List Token → α → Prop) (ts : List Token) (xs : List α) : Prop :=
  ∃ opening us closing elements, ts = opening :: (us ++ [closing]) ∧
    opening.kind = .mark .leftParen ∧ closing.kind = .mark .rightParen ∧
    Listed us elements ∧ (∀ element ∈ elements, L element.1 element.2) ∧ xs = elements.map (·.2)

/-- What elements of a list must be: they have a first token, which is no closing parenthesis, and a
comma or a closing parenthesis may follow them. -/
structure Element (L : List Token → α → Prop) (F : List Token → Prop) : Prop where
  first : ∀ ts a, L ts a → ∃ t us, ts = t :: us ∧ t.kind ≠ .mark .rightParen
  comma : ∀ (t : Token) rest, t.kind = .mark .comma → F (t :: rest)
  rightParen : ∀ (t : Token) rest, t.kind = .mark .rightParen → F (t :: rest)

/-! One round of the loop over the elements. -/

section Round

variable {c c₁ : Cursor} {n : Nat} {a : α}

lemma commaSeparated_end (h : c.next? = some (.mark .rightParen)) :
    commaSeparated r (n + 1) c = .ok ([], c) := by
  rw [commaSeparated, peek_bind, if_pos h]
  rfl

lemma commaSeparated_last (h : c.next? ≠ some (.mark .rightParen)) (ha : r c = .ok (a, c₁))
    (hc₁ : c₁.next? ≠ some (.mark .comma)) : commaSeparated r (n + 1) c = .ok ([a], c₁) := by
  rw [commaSeparated, peek_bind, if_neg h]
  refine bind_eq_ok.2 ⟨a, c₁, ha, ?_⟩
  rw [peek_bind, if_neg hc₁]
  rfl

lemma commaSeparated_comma {xs : List α} {c' : Cursor} (h : c.next? ≠ some (.mark .rightParen))
    (ha : r c = .ok (a, c₁)) (hc₁ : c₁.next? = some (.mark .comma))
    (hxs : commaSeparated r n c₁.advance = .ok (xs, c')) :
    commaSeparated r (n + 1) c = .ok (a :: xs, c') := by
  rw [commaSeparated, peek_bind, if_neg h]
  refine bind_eq_ok.2 ⟨a, c₁, ha, ?_⟩
  rw [peek_bind, if_pos hc₁, advance_bind]
  exact bind_eq_ok.2 ⟨xs, c', hxs, rfl⟩

/-- There is no other round. -/
lemma commaSeparated_cases {xs : List α} {c' : Cursor}
    (h : commaSeparated r (n + 1) c = .ok (xs, c')) : (xs = [] ∧ c' = c) ∨
      ∃ a c₁, r c = .ok (a, c₁) ∧ ((xs = [a] ∧ c' = c₁) ∨
        ∃ ys, xs = a :: ys ∧ c₁.next? = some (.mark .comma) ∧
          commaSeparated r n c₁.advance = .ok (ys, c')) := by
  rw [commaSeparated, peek_bind] at h
  split at h
  · obtain ⟨rfl, rfl⟩ := Prod.mk.inj (Except.ok.inj h)
    exact .inl ⟨rfl, rfl⟩
  · obtain ⟨a, c₁, ha, h⟩ := bind_eq_ok.1 h
    refine .inr ⟨a, c₁, ha, ?_⟩
    rw [peek_bind] at h
    split at h
    · next hcomma =>
      rw [advance_bind] at h
      obtain ⟨ys, c₂, hys, h⟩ := bind_eq_ok.1 h
      obtain ⟨rfl, rfl⟩ := Prod.mk.inj (Except.ok.inj h)
      exact .inr ⟨ys, rfl, hcomma, hys⟩
    · obtain ⟨rfl, rfl⟩ := Prod.mk.inj (Except.ok.inj h)
      exact .inl ⟨rfl, rfl⟩

end Round

/-- What the loop reads is a list of elements. -/
lemma listed_of_commaSeparated (hr : Accepts r L F) {n : Nat} {c c' : Cursor} {xs : List α}
    (h : commaSeparated r n c = .ok (xs, c')) : ∃ ts elements, c.Passes ts c' ∧ Listed ts elements ∧
      (∀ element ∈ elements, L element.1 element.2) ∧ xs = elements.map (·.2) := by
  induction n generalizing c xs with
  | zero =>
    obtain ⟨rfl, rfl⟩ := Prod.mk.inj (Except.ok.inj h)
    exact ⟨[], [], rfl, .none, by simp, rfl⟩
  | succ n ih =>
    rcases commaSeparated_cases h with ⟨rfl, rfl⟩ | ⟨a, c₁, ha, hlist⟩
    · exact ⟨[], [], rfl, .none, by simp, rfl⟩
    · obtain ⟨ts, hts, hLa, -⟩ := (hr c a c₁).1 ha
      rcases hlist with ⟨rfl, rfl⟩ | ⟨ys, rfl, hcomma, hys⟩
      · exact ⟨ts, [(ts, a)], hts, .last, by simpa using hLa, rfl⟩
      · obtain ⟨us, elements, hus, hlisted, helements, rfl⟩ := ih hys
        obtain ⟨comma, hfirst, hkind⟩ := Option.map_eq_some_iff.1 hcomma
        refine ⟨ts ++ comma :: us, (ts, a) :: elements, ?_, .comma hkind hlisted, ?_, rfl⟩
        · exact Cursor.passes_append.2 ⟨c₁, hts, hfirst, hus⟩
        · exact List.forall_mem_cons.2 ⟨hLa, helements⟩

/-- **A list of elements before a closing parenthesis is read**: the bound on the number of elements
is not reached, since each of them has a token. -/
lemma commaSeparated_of_listed (hr : Accepts r L F) (hL : Element L F) {n : Nat} {c c' : Cursor}
    {ts : List Token} {elements : List (List Token × α)} (hn : c.rest.length < n)
    (hnext : c'.next? = some (.mark .rightParen)) (hpasses : c.Passes ts c')
    (hlisted : Listed ts elements) (helements : ∀ element ∈ elements, L element.1 element.2) :
    commaSeparated r n c = .ok (elements.map (·.2), c') := by
  -- an element does not begin with a closing parenthesis
  have hbegins : ∀ {c c₁ : Cursor} {ts : List Token} {a : α}, L ts a → c.Passes ts c₁ →
      c.next? ≠ some (.mark .rightParen) := by
    intro c c₁ ts a hLa hpasses hnext
    obtain ⟨t, us, rfl, ht⟩ := hL.first ts a hLa
    obtain ⟨_, hrest, -⟩ := Cursor.passes_cons.1 hpasses
    rw [Cursor.next?_of_rest hrest] at hnext
    exact ht (Option.some.inj hnext)
  induction hlisted generalizing c n with
  | none =>
    obtain ⟨m, rfl⟩ : ∃ m, n = m + 1 := ⟨n - 1, by omega⟩
    obtain rfl := Cursor.passes_nil.1 hpasses
    exact commaSeparated_end hnext
  | @last ts a =>
    obtain ⟨m, rfl⟩ : ∃ m, n = m + 1 := ⟨n - 1, by omega⟩
    have hLa : L ts a := helements _ List.mem_cons_self
    have hF : F c'.rest := by
      obtain ⟨closing, hfirst, hclosing⟩ := Option.map_eq_some_iff.1 hnext
      obtain ⟨rest, hrest⟩ := List.head?_eq_some_iff.1 hfirst
      rw [hrest]
      exact hL.rightParen closing rest hclosing
    have hread : r c = .ok (a, c') := (hr c a c').2 ⟨ts, hpasses, hLa, hF⟩
    exact commaSeparated_last (hbegins hLa hpasses) hread (by simp [hnext])
  | @comma ts us comma a elements hcomma hlisted ih =>
    obtain ⟨m, rfl⟩ : ∃ m, n = m + 1 := ⟨n - 1, by omega⟩
    obtain ⟨hLa, helements⟩ := List.forall_mem_cons.1 helements
    have hrest := hpasses.rest_eq
    obtain ⟨c₁, hts, hfirst, hus⟩ := Cursor.passes_append.1 hpasses
    obtain ⟨rest₁, hrest₁⟩ : ∃ rest₁, c₁.rest = comma :: rest₁ := by
      obtain ⟨rest₁, hrest₁, -⟩ := Cursor.passes_cons.1 ⟨hfirst, hus⟩
      exact ⟨rest₁, hrest₁⟩
    have hF : F c₁.rest := by
      rw [hrest₁]
      exact hL.comma comma rest₁ hcomma
    have hread : r c = .ok (a, c₁) := (hr c a c₁).2 ⟨ts, hts, hLa, hF⟩
    have hnext : c₁.next? = some (.mark .comma) := by
      rw [Cursor.next?_of_rest hrest₁, hcomma]
    have hlength : c₁.advance.rest.length < m := by
      have hus := hus.rest_eq
      simp only [hrest, List.length_append, List.length_cons] at hn
      rw [hus, List.length_append]
      omega
    exact commaSeparated_comma (hbegins hLa hts) hread hnext (ih hlength hus helements)

/-- **Elements in parentheses.** -/
theorem accepts_parenthesised (hr : Accepts r L F) (hL : Element L F) :
    Accepts (parenthesised r) (Parenthesised L) anything := by
  refine (accepts_enclosed .leftParen .rightParen (L := fun ts xs => ∃ elements, Listed ts elements ∧
    (∀ element ∈ elements, L element.1 element.2) ∧ xs = elements.map (·.2)) ?_ ?_).congr ?_
  · intro n c xs c' h
    obtain ⟨ts, elements, hpasses, hlisted⟩ := listed_of_commaSeparated hr h
    exact ⟨ts, hpasses, elements, hlisted⟩
  · rintro n c ts _ c' hn hnext hpasses ⟨elements, hlisted, helements, rfl⟩
    exact commaSeparated_of_listed hr hL hn hnext hpasses hlisted helements
  · intro ts xs
    constructor
    · rintro ⟨opening, us, closing, rfl, ho, hc, elements, hlisted⟩
      exact ⟨opening, us, closing, elements, rfl, ho, hc, hlisted⟩
    · rintro ⟨opening, us, closing, elements, rfl, ho, hc, hlisted⟩
      exact ⟨opening, us, closing, rfl, ho, hc, elements, hlisted⟩

end Rule

end Shading
