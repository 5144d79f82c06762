import Shading.Proofs.Grammar.Blind
import Shading.Proofs.Grammar.Programs

/-!
# Where reading stops

A rule makes up its mind early: what it reads, or why it stops, depends on the tokens that it passes and
on the one behind them, and of these only on what can be seen of them.  A fault is placed at the last
token passed.  So whatever follows the token behind that one, reading stops there just the same.

The loops count the tokens that are left, and these differ between lists that begin alike; a bound that is
large enough never shows.

* `Token.Alike` — lists of tokens that look the same at the front;
* `Rule.Settles`, `Rule.PromptAt` — what a rule makes of the tokens at the front;
* `Rule.PromptAt.bind`, `Rule.PromptAt.of_eq` — one rule behind another, and a rule that looks ahead;
* `Expr.eager_rule`, `Statement.promptAt_rule`, `Item.promptAt_sequence` — all rules are prompt;
* `Program.ofTokens_fails_early` — faults are early, and placed at the last token passed.
-/

namespace Shading

open Grammar

/-! ### Tokens at the front -/

/-- The first `n` tokens look the same. -/
def Token.Alike (n : Nat) (us ts : List Token) : Prop :=
  (us.map Token.view).take n = (ts.map Token.view).take n

namespace Token.Alike

variable {m n : Nat} {t : Token} {us ts : List Token}

lemma mono (h : Alike n us ts) (hle : m ≤ n) : Alike m us ts := by
  have htake := congrArg (List.take m) h
  rwa [List.take_take, List.take_take, Nat.min_eq_left hle] at htake

lemma drop {d : Nat} (h : Alike d us ts) (hle : m + n ≤ d) : Alike n (us.drop m) (ts.drop m) := by
  have hdrop := congrArg (List.drop m) (h.mono hle)
  rw [List.drop_take, List.drop_take, Nat.add_sub_cancel_left] at hdrop
  unfold Alike
  rwa [List.map_drop, List.map_drop]

lemma view_head? (h : Alike (n + 1) us ts) : us.head?.map Token.view = ts.head?.map Token.view := by
  have hhead := congrArg List.head? (h.mono (Nat.le_add_left 1 n))
  rwa [List.head?_take, List.head?_take, List.head?_map, List.head?_map] at hhead

lemma kind_head? (h : Alike (n + 1) us ts) : us.head?.map Token.kind = ts.head?.map Token.kind := by
  have hkind := congrArg (Option.map Prod.fst) h.view_head?
  rwa [Option.map_map, Option.map_map] at hkind

lemma eq_nil (h : Alike (n + 1) us []) : us = [] := by
  have hhead := h.view_head?
  cases us with
  | nil => rfl
  | cons u us => cases hhead

lemma exists_cons (h : Alike (n + 1) us (t :: ts)) :
    ∃ u us', us = u :: us' ∧ u.view = t.view := by
  have hhead := h.view_head?
  cases us with
  | nil => cases hhead
  | cons u us => exact ⟨u, us, rfl, Option.some.inj hhead⟩

/-- Of two lists alike, one has `n` tokens if the other has. -/
lemma le_length (h : Alike n us ts) (hle : n ≤ ts.length) : n ≤ us.length := by
  have hlength := congrArg List.length h
  simp only [List.length_take, List.length_map] at hlength
  omega

end Token.Alike

/-- Behind the next `n` tokens, or behind all of them. -/
def Grammar.Cursor.ahead (c : Cursor) (n : Nat) : Cursor := Cursor.advance^[n] c

namespace Grammar.Cursor

variable {c : Cursor} {n : Nat} {ts : List Token}

lemma ahead_succ (c : Cursor) (n : Nat) : c.ahead (n + 1) = c.advance.ahead n := rfl

lemma ahead_add (c : Cursor) (m n : Nat) : c.ahead (m + n) = (c.ahead m).ahead n := by
  unfold ahead
  rw [Nat.add_comm, Function.iterate_add_apply]

lemma rest_advance (c : Cursor) : c.advance.rest = c.rest.tail := by
  unfold advance
  split
  · next h => rw [h]; rfl
  · next h => rw [h]; rfl

lemma rest_ahead (c : Cursor) (n : Nat) : (c.ahead n).rest = c.rest.drop n := by
  induction n generalizing c with
  | zero => rfl
  | succ n ih => rw [ahead_succ, ih, rest_advance, List.drop_tail]

/-- The position is that of the last token passed. -/
lemma last_ahead {t : Token} (h : c.rest[n]? = some t) : (c.ahead (n + 1)).last = t.position := by
  obtain ⟨rest, last⟩ := c
  induction n generalizing rest last with
  | zero =>
    obtain ⟨rest, rfl⟩ := List.head?_eq_some_iff.1 (List.head?_eq_getElem? ▸ h)
    rfl
  | succ n ih =>
    cases rest with
    | nil => cases h
    | cons u rest => exact ih rest u.position h

lemma next?_of_alike (h : Token.Alike (n + 1) c.rest ts) : c.next? = ts.head?.map Token.kind :=
  h.kind_head?

lemma second?_of_alike (h : Token.Alike (n + 2) c.rest ts) : c.second? = ts.tail.head?.map Token.kind := by
  have htail := (h.drop (by omega : 1 + (n + 1) ≤ n + 2)).kind_head?
  rwa [List.drop_one, List.drop_one] at htail

end Grammar.Cursor

namespace Rule

variable {α β : Type} {l m n : Nat} {r : Rule α} {k : α → Rule β} {loop : Nat → Rule α}
  {ts : List Token} {t : Token} {x : Except Cause α}

/-! ### What a rule makes of the tokens at the front -/

/-- What a rule comes to at a place: a value comes with the place, and a cause is placed at the token read
last. -/
def ends (c : Cursor) : Except Cause α → Except Fault (α × Cursor)
  | .ok a => .ok (a, c)
  | .error cause => .error ⟨cause, c.last⟩

/-- Wherever at most `m` tokens are left, and the first `n` of them and the one behind look like those of
`ts`, the rule passes `n` tokens and comes to `x`. -/
def Settles (m : Nat) (r : Rule α) (ts : List Token) (n : Nat) (x : Except Cause α) : Prop :=
  ∀ c : Cursor, c.rest.length ≤ m → Token.Alike (n + 1) c.rest ts → r c = ends (c.ahead n) x

/-- Before `ts` the loop makes up its mind when it has passed some tokens, `l` at the least, and seen the
one behind them; a bound on its rounds that is no less than the tokens left does not show. -/
def PromptAt (l : Nat) (loop : Nat → Rule α) (ts : List Token) : Prop :=
  ∃ n x, l ≤ n ∧ n ≤ ts.length ∧ ∀ m, Settles m (loop m) ts n x

/-- The rule makes up its mind when it has seen the token behind those it passes. -/
def Prompt (r : Rule α) : Prop := ∀ ts, PromptAt 0 (fun _ => r) ts

/-- The rule is prompt, and passes a token if there is one. -/
def Eager (r : Rule α) : Prop := ∀ ts, PromptAt (min 1 ts.length) (fun _ => r) ts

namespace Settles

lemma bind_ok {a : α} {y : Except Cause β} {n' : Nat} (hr : Settles m r ts n (.ok a))
    (hk : Settles (m - n) (k a) (ts.drop n) n' y) : Settles m (r >>= k) ts (n + n') y := by
  intro c hm halike
  have hread : r c = .ok (a, c.ahead n) := hr c hm (halike.mono (by omega))
  have hlength : (c.ahead n).rest.length ≤ m - n := by
    rw [Cursor.rest_ahead, List.length_drop]
    omega
  have hrest : k a (c.ahead n) = ends ((c.ahead n).ahead n') y := by
    refine hk _ hlength ?_
    rw [Cursor.rest_ahead]
    exact halike.drop (by omega)
  show (r c).bind (fun p => k p.1 p.2) = _
  rw [hread, Cursor.ahead_add]
  exact hrest

lemma bind_error {cause : Cause} (hr : Settles m r ts n (.error cause)) :
    Settles m (r >>= k) ts n (.error cause) := by
  intro c hm halike
  show (r c).bind (fun p => k p.1 p.2) = _
  rw [hr c hm halike]
  rfl

end Settles

namespace PromptAt

lemma mono {l' : Nat} (h : PromptAt l loop ts) (hle : l' ≤ l) : PromptAt l' loop ts := by
  obtain ⟨n, x, hl, hn, hsettles⟩ := h
  exact ⟨n, x, hle.trans hl, hn, hsettles⟩

/-- A larger bound does no harm. -/
lemma slack (h : PromptAt l loop ts) (d : Nat) : PromptAt l (fun m => loop (m + d)) ts := by
  obtain ⟨n, x, hl, hn, hsettles⟩ := h
  exact ⟨n, x, hl, hn, fun m c hm halike => hsettles (m + d) c (by omega) halike⟩

/-- **One rule behind another**, which goes on where the first has come to. -/
lemma bind {k : Nat → α → Rule β} (hr : PromptAt l loop ts)
    (hk : ∀ a n, l ≤ n → n ≤ ts.length → PromptAt 0 (fun m => k (m + n) a) (ts.drop n)) :
    PromptAt l (fun m => loop m >>= k m) ts := by
  obtain ⟨n, x, hl, hn, hsettles⟩ := hr
  cases x with
  | error cause => exact ⟨n, .error cause, hl, hn, fun m => (hsettles m).bind_error⟩
  | ok a =>
    obtain ⟨n', y, -, hn', hsettles'⟩ := hk a n hl hn
    rw [List.length_drop] at hn'
    refine ⟨n + n', y, by omega, by omega, fun m c hm halike => ?_⟩
    -- the tokens passed are there, so that the bound can be divided
    have hpassed : n ≤ c.rest.length := (halike.mono (by omega)).le_length hn
    obtain ⟨m', rfl⟩ : ∃ m', m = m' + n := ⟨m - n, by omega⟩
    refine (hsettles (m' + n)).bind_ok ?_ c hm halike
    rw [Nat.add_sub_cancel]
    exact hsettles' m'

/-- Behind it only rules that are prompt. -/
lemma andThen (hr : PromptAt l loop ts) (hk : ∀ a, Prompt (k a)) :
    PromptAt l (fun m => loop m >>= k) ts :=
  hr.bind (k := fun _ => k) fun a n _ _ => hk a (ts.drop n)

/-- **A rule that looks ahead**: it may look at one token more than it is sure to pass. -/
lemma of_eq {loop' : Nat → Rule α} (h : PromptAt l loop' ts)
    (heq : ∀ m c, c.rest.length ≤ m → Token.Alike (l + 1) c.rest ts → loop m c = loop' m c) :
    PromptAt l loop ts := by
  obtain ⟨n, x, hl, hn, hsettles⟩ := h
  refine ⟨n, x, hl, hn, fun m c hm halike => ?_⟩
  rw [heq m c hm (halike.mono (by omega)), hsettles m c hm halike]

/-- The kind of the next token is known. -/
lemma peek {k : Nat → Option Token.Kind → Rule β}
    (h : PromptAt l (fun m => k m (ts.head?.map Token.kind)) ts) :
    PromptAt l (fun m => Rule.peek >>= k m) ts := by
  refine h.of_eq fun m c _ halike => ?_
  rw [peek_bind, Cursor.next?_of_alike halike]

/-- Of the next token only what can be seen of it may be used. -/
lemma peekToken {k : Option Token → Rule β} {r : Rule β} (h : PromptAt l (fun _ => r) (t :: ts))
    (hview : ∀ u, u.view = t.view → k (some u) = r) :
    PromptAt l (fun _ => Rule.peekToken >>= k) (t :: ts) := by
  refine h.of_eq fun m c _ halike => ?_
  obtain ⟨u, us, hrest, hu⟩ := halike.exists_cons
  rw [peekToken_bind, hrest, List.head?_cons, hview u hu]

/-- The next token is passed. -/
lemma advance {k : Nat → Rule β} (h : PromptAt l (fun m => k (m + 1)) ts) :
    PromptAt (l + 1) (fun m => Rule.advance >>= fun _ => k m) (t :: ts) := by
  obtain ⟨n, x, hl, hn, hsettles⟩ := h
  refine ⟨n + 1, x, by omega, Nat.succ_le_succ hn, fun m c hm halike => ?_⟩
  obtain ⟨u, us, hrest, -⟩ := halike.exists_cons
  rw [hrest, List.length_cons] at hm
  obtain ⟨m, rfl⟩ : ∃ m', m = m' + 1 := ⟨m - 1, by omega⟩
  refine (advance_bind _ c).trans (hsettles m c.advance ?_ ?_)
  · rw [Cursor.rest_advance, hrest, List.tail_cons]
    omega
  · have hdrop := halike.drop (by omega : 1 + (n + 1) ≤ n + 1 + 1)
    rwa [List.drop_one, List.drop_one, ← Cursor.rest_advance] at hdrop

lemma pass {r : Rule β} (h : PromptAt l (fun _ => r) ts) :
    PromptAt (l + 1) (fun _ => Rule.advance >>= fun _ => r) (t :: ts) := h.advance

/-- All that is left is counted. -/
lemma remaining (h : PromptAt l loop ts) : PromptAt l (fun _ => Rule.remaining >>= loop) ts := by
  obtain ⟨n, x, hl, hn, hsettles⟩ := h
  exact ⟨n, x, hl, hn, fun m c _ halike => hsettles c.rest.length c le_rfl halike⟩

/-- Where a token is left, the bound is not zero. -/
lemma of_pred (h : PromptAt l (fun m => loop (m - 1 + 1)) (t :: ts)) : PromptAt l loop (t :: ts) := by
  refine h.of_eq fun m c hm halike => ?_
  obtain ⟨u, us, hrest, -⟩ := halike.exists_cons
  rw [hrest, List.length_cons] at hm
  rw [Nat.sub_add_cancel (by omega)]

end PromptAt

lemma promptAt_pure (a : α) (ts : List Token) : PromptAt 0 (fun _ => pure a) ts :=
  ⟨0, .ok a, le_rfl, Nat.zero_le _, fun _ _ _ _ => rfl⟩

lemma prompt_pure (a : α) : Prompt (pure a) := promptAt_pure a

lemma prompt_stop (cause : Cause) : Prompt (stop cause : Rule α) :=
  fun _ => ⟨0, .error cause, le_rfl, Nat.zero_le _, fun _ _ _ _ => rfl⟩

lemma Prompt.bind (hr : Prompt r) (hk : ∀ a, Prompt (k a)) : Prompt (r >>= k) :=
  fun ts => (hr ts).andThen hk

lemma Eager.prompt (h : Eager r) : Prompt r := fun ts => (h ts).mono (Nat.zero_le _)

/-! ### Rules for one token -/

lemma prompt_peek : Prompt peek := by
  refine fun ts => ⟨0, .ok (ts.head?.map Token.kind), le_rfl, Nat.zero_le _, fun m c _ halike => ?_⟩
  rw [← Cursor.next?_of_alike halike]
  rfl

lemma eager_advance : Eager advance := by
  intro ts
  cases ts with
  | nil =>
    refine ⟨0, .ok (), le_rfl, le_rfl, fun m c _ halike => ?_⟩
    have hc : c.advance = c := by
      unfold Cursor.advance
      rw [halike.eq_nil]
    show Except.ok ((), c.advance) = _
    rw [hc]
    rfl
  | cons t ts => exact ⟨1, .ok (), by simp, by simp, fun m c _ _ => rfl⟩

lemma prompt_advance : Prompt advance := eager_advance.prompt

lemma prompt_expect (m : Mark) : Prompt (expect m) := by
  refine prompt_peek.bind fun found => ?_
  split
  · exact prompt_advance
  · exact prompt_stop _

lemma promptAt_expect {m : Mark} (ht : t.kind = .mark m) : PromptAt 1 (fun _ => expect m) (t :: ts) := by
  refine .peek ?_
  rw [if_pos (by simp [ht])]
  exact eager_advance (t :: ts)

lemma prompt_identifier : Prompt identifier := by
  refine prompt_peek.bind fun found => ?_
  split
  · exact prompt_advance.bind fun _ => prompt_pure _
  · exact prompt_stop _

lemma promptAt_identifier {name : String} (ht : t.kind = .identifier name) :
    PromptAt 1 (fun _ => identifier) (t :: ts) := by
  refine .peek ?_
  rw [List.head?_cons, Option.map_some, ht]
  exact .pass (promptAt_pure name ts)

/-! ### Lists in parentheses -/

/-- **The loop over elements.**  A round passes a comma at the least, so that what is left gets shorter. -/
lemma promptAt_commaSeparated (hr : Prompt r) (ts : List Token) :
    PromptAt 0 (fun m => commaSeparated r (m + 1)) ts := by
  induction hlength : ts.length using Nat.strong_induction_on generalizing ts with
  | _ length ih =>
    refine .peek ?_
    split
    · exact promptAt_pure _ _
    · refine (hr ts).bind fun x n _ hn => .peek ?_
      split
      · next hcomma =>
        obtain ⟨comma, hhead, -⟩ := Option.map_eq_some_iff.1 hcomma
        obtain ⟨later, hlater⟩ := List.head?_eq_some_iff.1 hhead
        have hshorter : later.length < length := by
          have hdrop := congrArg List.length hlater
          rw [List.length_drop, List.length_cons] at hdrop
          omega
        rw [hlater]
        have hloop := (ih later.length hshorter later rfl).slack n
        refine (PromptAt.advance ?_).mono (Nat.zero_le 1)
        simp only [Nat.add_right_comm _ 1 n]
        exact hloop.andThen fun xs => prompt_pure _
      · exact promptAt_pure _ _

lemma prompt_parenthesised (hr : Prompt r) : Prompt (parenthesised r) := by
  refine (prompt_expect _).bind fun _ ts => .remaining ?_
  exact (promptAt_commaSeparated hr ts).andThen fun xs => (prompt_expect _).bind fun _ => prompt_pure _

end Rule

open Rule (Prompt PromptAt Eager)

/-! ### Expressions -/

namespace Primitive

lemma prompt_named (word : String) (precision? : Option Precision) :
    Prompt (match ofWord? word precision? with
      | some primitive => pure primitive
      | none => Rule.stop (.unknownPrimitive word)) := by
  split
  · exact Rule.prompt_pure _
  · exact Rule.prompt_stop _

lemma prompt_afterWord (first : String) : Prompt (do
    let precision := Precision.ofWord? first
    let word ← if precision.isSome then Rule.identifier else pure first
    match ofWord? word precision with
    | some primitive => return primitive
    | none => Rule.stop (.unknownPrimitive word)) := by
  dsimp only
  split
  · exact Rule.prompt_identifier.bind fun word => prompt_named word _
  · exact (Rule.prompt_pure first).bind fun word => prompt_named word _

lemma prompt_rule : Prompt Primitive.rule := Rule.prompt_identifier.bind prompt_afterWord

lemma promptAt_rule {t : Token} {ts : List Token} {name : String} (ht : t.kind = .identifier name) :
    PromptAt 1 (fun _ => Primitive.rule) (t :: ts) :=
  (Rule.promptAt_identifier ht).andThen prompt_afterWord

end Primitive

namespace Expr

variable {r : Rule Expr} {op? : Token.Kind → Option BinaryOp} {l : Nat} {t : Token} {ts : List Token}

/-- **The loop over operators.**  A round passes an operator at the least. -/
lemma promptAt_chain (hr : Prompt r) (left : Expr) (ts : List Token) :
    PromptAt 0 (fun m => chain op? r m left) ts := by
  induction hlength : ts.length using Nat.strong_induction_on generalizing left ts with
  | _ length ih =>
    cases hop : (ts.head?.map Token.kind).bind op? with
    | none =>
      refine (Rule.promptAt_pure left ts).of_eq fun m c _ halike => ?_
      rw [← Cursor.next?_of_alike halike] at hop
      exact chain_stop hop m left
    | some op =>
      cases ts with
      | nil => cases hop
      | cons t ts =>
        refine .of_pred (.peek ?_)
        rw [hop]
        refine (PromptAt.advance ((hr ts).bind fun right n _ hn => ?_)).mono (Nat.zero_le 1)
        have hshorter : (ts.drop n).length < length := by
          rw [List.length_drop, ← hlength, List.length_cons]
          omega
        exact (ih _ hshorter (.binary op left right) (ts.drop n) rfl).slack n

lemma promptAt_level (hr : Prompt r) (h : PromptAt l (fun _ => r) ts) :
    PromptAt l (fun _ => level op? r) ts :=
  h.andThen fun left ts => (promptAt_chain hr left ts).remaining

lemma eager_levels (hr : Eager r) : Eager (levels r) := by
  have hlevel : ∀ {op? : Token.Kind → Option BinaryOp} {r : Rule Expr}, Eager r → Eager (level op? r) :=
    fun h ts => promptAt_level h.prompt (h ts)
  exact hlevel (hlevel (hlevel (hlevel hr)))

lemma promptAt_construction (hr : Prompt r) {name : String} (ht : t.kind = .identifier name) :
    PromptAt 1 (fun _ => construction r) (t :: ts) :=
  (Primitive.promptAt_rule ht).andThen fun _ =>
    (Rule.prompt_parenthesised hr).bind fun _ => Rule.prompt_pure _

lemma promptAt_grouping (hr : Prompt r) (ht : t.kind = .mark .leftParen) :
    PromptAt 1 (fun _ => grouping r) (t :: ts) :=
  (Rule.promptAt_expect ht).andThen fun _ =>
    hr.bind fun _ => (Rule.prompt_expect _).bind fun _ => Rule.prompt_pure _

lemma prompt_sampling (hr : Prompt r) : Prompt (sampling r) := by
  refine (Rule.prompt_expect _).bind fun _ => Rule.prompt_identifier.bind fun sampler => ?_
  refine (Rule.prompt_expect _).bind fun _ => hr.bind fun value => ?_
  exact (Rule.prompt_expect _).bind fun _ => Rule.prompt_pure _

/-- A token and nothing else is passed. -/
lemma promptAt_passed (e : Expr) : PromptAt 1 (fun _ => Rule.advance >>= fun _ => pure e) (t :: ts) :=
  .pass (Rule.promptAt_pure e ts)

lemma promptAt_refused (cause : Cause) :
    PromptAt 1 (fun _ => (Rule.advance >>= fun _ => Rule.stop cause : Rule Expr)) (t :: ts) :=
  .pass (Rule.prompt_stop cause ts)

/-- **An innermost expression passes its first token**, whatever it is. -/
lemma promptAt_primary (hr : Prompt r) (t : Token) (ts : List Token) :
    PromptAt 1 (fun _ => primary r) (t :: ts) := by
  have hkind : ∀ {u : Token}, u.view = t.view → u.kind = t.kind := fun h => congrArg Prod.fst h
  cases h : t.kind with
  | mark m =>
    cases m with
    | leftParen =>
      refine (promptAt_grouping hr h).peekToken fun u hu => ?_
      simp only [hkind hu, h]
    | _ =>
      refine (promptAt_refused (.expectedExpression (some t.kind))).peekToken fun u hu => ?_
      simp only [hkind hu, h]
  | number value =>
    refine (promptAt_passed (.constant (.number value (t.lexeme.toList.contains '.')))).peekToken
      fun u hu => ?_
    have hpoint := congrArg Prod.snd hu
    simp only [Token.view, hkind hu, h] at hpoint
    simp only [hkind hu, h, hpoint]
  | string text =>
    refine (promptAt_passed (.constant (.string text))).peekToken fun u hu => ?_
    simp only [hkind hu, h]
  | identifier name =>
    by_cases hname : Primitive.isTypeWord name = true
    · refine (promptAt_construction hr h).peekToken fun u hu => ?_
      simp only [hkind hu, h]
      rw [if_pos hname]
    · refine (promptAt_passed (.symbol name)).peekToken fun u hu => ?_
      simp only [hkind hu, h]
      rw [if_neg hname]
  | keyword k =>
    cases k with
    | sample =>
      refine (prompt_sampling hr ts).pass.peekToken fun u hu => ?_
      simp only [hkind hu, h]
    | _ =>
      refine (promptAt_refused (.expectedExpression (some t.kind))).peekToken fun u hu => ?_
      simp only [hkind hu, h]
  | comment text =>
    refine (promptAt_refused (.expectedExpression (some t.kind))).peekToken fun u hu => ?_
    simp only [hkind hu, h]

lemma eager_primary (hr : Prompt r) : Eager (primary r) := by
  intro ts
  cases ts with
  | nil =>
    refine (Rule.prompt_stop (.expectedExpression none) []).of_eq fun m c _ halike => ?_
    rw [primary, Rule.peekToken_bind, halike.eq_nil]
    rfl
  | cons t ts => exact (promptAt_primary hr t ts).mono (Nat.min_le_left _ _)

lemma eager_prefixed {inner : Inner} (he : Prompt inner.expression) (ho : Prompt inner.operand) :
    Eager (prefixed inner) := by
  intro ts
  refine .peek ?_
  split
  · next op hop =>
    cases ts with
    | nil => cases hop
    | cons t ts =>
      have hunary := ho.bind fun value => Rule.prompt_pure (Expr.unary op value)
      exact (hunary ts).pass.mono (Nat.min_le_left _ _)
  · exact eager_primary he ts

lemma prompt_ofDepth (n : Nat) :
    Prompt (Inner.ofDepth n).expression ∧ Prompt (Inner.ofDepth n).operand := by
  induction n with
  | zero => exact ⟨Rule.prompt_stop _, Rule.prompt_stop _⟩
  | succ n ih =>
    have hprefixed := eager_prefixed ih.1 ih.2
    exact ⟨(eager_levels hprefixed).prompt, hprefixed.prompt⟩

/-- An expression is never too deep before its first token. -/
theorem eager_rule : Eager Expr.rule := by
  have hinner := prompt_ofDepth 63
  exact eager_levels (eager_prefixed hinner.1 hinner.2)

lemma prompt_rule : Prompt Expr.rule := eager_rule.prompt

end Expr

/-! ### Declarations and statements -/

lemma Binding.prompt_rule : Prompt Binding.rule :=
  Primitive.prompt_rule.bind fun _ => Rule.prompt_identifier.bind fun _ => Rule.prompt_pure _

lemma Constant.prompt_rule : Prompt Constant.rule := by
  refine Primitive.prompt_rule.bind fun p => Rule.prompt_identifier.bind fun name => ?_
  exact (Rule.prompt_expect _).bind fun _ => Expr.prompt_rule.bind fun _ => Rule.prompt_pure _

namespace Statement

variable {t : Token} {ts : List Token}

lemma prompt_afterKeyword (k : Keyword) : Prompt (afterKeyword k) := by
  cases k with
  | returns =>
    exact Expr.prompt_rule.bind fun _ => (Rule.prompt_expect _).bind fun _ => Rule.prompt_pure _
  | const =>
    exact Constant.prompt_rule.bind fun _ => (Rule.prompt_expect _).bind fun _ => Rule.prompt_pure _
  | _ => exact Rule.prompt_stop _

lemma prompt_assignment (name : String) : Prompt (assignment name) :=
  Expr.prompt_rule.bind fun _ => (Rule.prompt_expect _).bind fun _ => Rule.prompt_pure _

lemma promptAt_evaluation (t : Token) (ts : List Token) : PromptAt 1 (fun _ => evaluation) (t :: ts) := by
  have hexpr : PromptAt 1 (fun _ => Expr.rule) (t :: ts) := (Expr.eager_rule (t :: ts)).mono (by simp)
  refine hexpr.andThen fun value => Rule.prompt_peek.bind fun found => ?_
  split
  · exact Rule.prompt_advance.bind fun _ => Rule.prompt_pure _
  · exact Rule.prompt_stop _

/-- **A statement passes its first token.**  The second token says whether a name is the target of an
assignment; it is the one behind the first, and so it may be seen. -/
theorem promptAt_rule (t : Token) (ts : List Token) : PromptAt 1 (fun _ => Statement.rule) (t :: ts) := by
  have hnext : ∀ {c : Cursor}, Token.Alike 2 c.rest (t :: ts) → c.next? = some t.kind :=
    fun h => Cursor.next?_of_alike h
  have hsecond : ∀ {c : Cursor}, Token.Alike 2 c.rest (t :: ts) → c.second? = ts.head?.map Token.kind :=
    fun h => Cursor.second?_of_alike h
  have hevaluation : (∀ text, t.kind ≠ .comment text) → (∀ k, t.kind ≠ .keyword k) →
      (∀ name, t.kind = .identifier name → ts.head?.map Token.kind ≠ some (.mark .equal)) →
      PromptAt 1 (fun _ => Statement.rule) (t :: ts) := by
    intro hcomment hkeyword hassign
    refine (promptAt_evaluation t ts).of_eq fun m c _ halike => rule_evaluation ?_ ?_ ?_
    · simpa [hnext halike] using hcomment
    · simpa [hnext halike] using hkeyword
    · simpa [hnext halike, hsecond halike] using hassign
  cases h : t.kind with
  | comment text =>
    refine (Rule.promptAt_pure (Statement.comment text) ts).pass.of_eq fun m c _ halike => ?_
    exact rule_comment (by rw [hnext halike, h])
  | keyword k =>
    refine (prompt_afterKeyword k ts).pass.of_eq fun m c _ halike => ?_
    exact rule_keyword (by rw [hnext halike, h])
  | identifier name =>
    by_cases hequal : ts.head?.map Token.kind = some (.mark .equal)
    · cases ts with
      | nil => cases hequal
      | cons u us =>
        have hassign := ((prompt_assignment name us).pass (t := u)).pass (t := t)
        refine (hassign.mono (Nat.le_add_left 1 1)).of_eq fun m c _ halike => ?_
        exact rule_assign (by rw [hnext halike, h]) (by rw [hsecond halike, hequal])
    · exact hevaluation (by simp [h]) (by simp [h]) fun _ _ => hequal
  | _ => exact hevaluation (by simp [h]) (by simp [h]) (by simp [h])

/-- **The loop over statements.**  Each passes a token at the least. -/
lemma promptAt_sequence (ts : List Token) : PromptAt 0 (fun m => sequence (m + 1)) ts := by
  induction hlength : ts.length using Nat.strong_induction_on generalizing ts with
  | _ length ih =>
    refine .peek ?_
    cases ts with
    | nil => exact Rule.prompt_stop _ []
    | cons t ts =>
      rw [List.head?_cons, Option.map_some]
      split
      · exact Rule.prompt_stop _ _
      · exact Rule.promptAt_pure _ _
      · refine ((promptAt_rule t ts).bind fun statement n hl hn => ?_).mono (Nat.zero_le 1)
        obtain ⟨n, rfl⟩ : ∃ n', n = n' + 1 := ⟨n - 1, by omega⟩
        have hshorter : ((t :: ts).drop (n + 1)).length < length := by
          rw [List.length_drop, hlength]
          omega
        exact ((ih _ hshorter _ rfl).slack n).andThen fun later => Rule.prompt_pure _

lemma prompt_body : Prompt body := by
  refine (Rule.prompt_expect _).bind fun _ ts => .remaining ?_
  exact (promptAt_sequence ts).andThen fun _ => (Rule.prompt_expect _).bind fun _ => Rule.prompt_pure _

end Statement

/-! ### Programs -/

namespace Item

lemma prompt_includePath : Prompt includePath := by
  refine Rule.prompt_peek.bind fun found => Rule.prompt_advance.bind fun _ => ?_
  split
  · exact Rule.prompt_pure _
  · exact Rule.prompt_stop _

lemma prompt_afterKeyword (k : Keyword) : Prompt (afterKeyword k) := by
  cases k with
  | includeFile => exact prompt_includePath.bind fun _ => Rule.prompt_pure _
  | shaderType => exact Rule.prompt_identifier.bind fun _ => Rule.prompt_pure _
  | uniform | varying => exact Binding.prompt_rule.bind fun _ => Rule.prompt_pure _
  | const => exact Constant.prompt_rule.bind fun _ => Rule.prompt_pure _
  | sample => exact (Expr.prompt_sampling Expr.prompt_rule).bind fun _ => Rule.prompt_pure _
  | _ => exact Rule.prompt_stop _

/-- The check of what a stage returns comes last, and sees no token. -/
lemma promptAt_definition {t : Token} {ts : List Token} {name : String} (ht : t.kind = .identifier name) :
    PromptAt 1 (fun _ => definition) (t :: ts) := by
  refine (Primitive.promptAt_rule ht).andThen fun returned => Rule.prompt_identifier.bind fun name => ?_
  refine (Rule.prompt_parenthesised Binding.prompt_rule).bind fun parameters => ?_
  refine Statement.prompt_body.bind fun body => ?_
  split
  · exact Rule.prompt_pure _
  · split
    · exact Rule.prompt_pure _
    · exact Rule.prompt_stop _

lemma promptAt_rule (t : Token) (ts : List Token) : PromptAt 1 (fun _ => Item.rule) (t :: ts) := by
  refine .peek ?_
  rw [List.head?_cons, Option.map_some]
  cases h : t.kind with
  | keyword k => exact .pass (prompt_afterKeyword k ts)
  | identifier name => exact (promptAt_definition h).andThen fun _ => Rule.prompt_pure _
  | _ => exact .pass (Rule.promptAt_pure none ts)

/-- **The loop over items.**  Each item, or token passed over, is a token at the least. -/
theorem promptAt_sequence (ts : List Token) : PromptAt (min 1 ts.length) sequence ts := by
  induction hlength : ts.length using Nat.strong_induction_on generalizing ts with
  | _ length ih =>
    subst hlength
    cases ts with
    | nil =>
      refine (Rule.promptAt_pure [] []).of_eq fun m c _ halike => ?_
      cases m with
      | zero => rfl
      | succ m =>
        rw [sequence, Rule.remaining_bind, halike.eq_nil]
        rfl
    | cons t ts =>
      have hround : PromptAt 1 (fun m => do
          let item ← Item.rule
          let later ← sequence (m - 1)
          return item.toList ++ later) (t :: ts) := by
        refine (promptAt_rule t ts).bind fun item n hl hn => ?_
        obtain ⟨n, rfl⟩ : ∃ n', n = n' + 1 := ⟨n - 1, by omega⟩
        have hshorter : ((t :: ts).drop (n + 1)).length < (t :: ts).length := by
          rw [List.length_drop]
          omega
        have hlater := (ih _ hshorter _ rfl).mono (Nat.zero_le _)
        exact (hlater.slack n).andThen fun later => Rule.prompt_pure _
      refine (hround.of_eq fun m c hm halike => ?_).mono (Nat.min_le_left _ _)
      obtain ⟨u, us, hrest, -⟩ := halike.exists_cons
      rw [hrest, List.length_cons] at hm
      obtain ⟨m, rfl⟩ : ∃ m', m = m' + 1 := ⟨m - 1, by omega⟩
      rw [sequence, Rule.remaining_bind, hrest, if_neg (by simp)]
      rfl

end Item

namespace Program

/-- Before tokens, reading comes to the same end wherever it begins alike. -/
lemma exists_settled {ts : List Token} (hne : ts ≠ []) : ∃ n x, 1 ≤ n ∧ n ≤ ts.length ∧
    ∀ us, Token.Alike (n + 1) us ts →
      itemsOfTokens us = Prod.fst <$> Rule.ends ((Cursor.start us).ahead n) x := by
  obtain ⟨n, x, hl, hn, hsettles⟩ := Item.promptAt_sequence ts
  have hlength := List.length_pos_iff.2 hne
  refine ⟨n, x, by omega, hn, fun us halike => ?_⟩
  unfold itemsOfTokens
  rw [hsettles us.length (Cursor.start us) le_rfl halike]

/-- **Faults are early, and placed at the last token passed.**  When a token list is no program, some of
its tokens have been passed, one at the least, and the fault is placed at the last of them.  Every list
that goes on alike up to the token behind that one, or ends there as well, has the same fault.  Of the
tokens only their kinds and the points of numbers matter: where these are the same, the cause is the same,
and the place is that of the last token passed in the other list. -/
theorem ofTokens_fails_early {ts : List Token} {fault : Fault} (h : ofTokens ts = .error fault) :
    ∃ k t, 1 ≤ k ∧ ts[k - 1]? = some t ∧ fault.position = t.position ∧
      (∀ us : List Token, us.take (k + 1) = ts.take (k + 1) → ofTokens us = .error fault) ∧
      ∀ us, Token.Alike (k + 1) us ts →
        ∃ u, us[k - 1]? = some u ∧ ofTokens us = .error ⟨fault.cause, u.position⟩ := by
  have hne : ts ≠ [] := by
    rintro rfl
    cases h
  obtain ⟨n, x, hpos, hn, hsettled⟩ := exists_settled hne
  obtain ⟨n, rfl⟩ : ∃ n', n = n' + 1 := ⟨n - 1, by omega⟩
  unfold ofTokens at h ⊢
  cases x with
  | ok items =>
    rw [hsettled ts rfl] at h
    cases h
  | error cause =>
    have hfails : ∀ us, Token.Alike (n + 1 + 1) us ts →
        ∃ u, us[n]? = some u ∧ ofItems <$> itemsOfTokens us = .error ⟨cause, u.position⟩ := by
      intro us halike
      have hlt : n < us.length := (halike.mono (Nat.le_succ _)).le_length hn
      have hu : us[n]? = some us[n] := List.getElem?_eq_getElem hlt
      refine ⟨us[n], hu, ?_⟩
      rw [hsettled us halike, ← Cursor.last_ahead (c := Cursor.start us) hu]
      rfl
    obtain ⟨t, ht, hts⟩ := hfails ts rfl
    obtain rfl : fault = ⟨cause, t.position⟩ := Except.error.inj (h.symm.trans hts)
    refine ⟨n + 1, t, hpos, ht, rfl, fun us htake => ?_, hfails⟩
    have halike : Token.Alike (n + 1 + 1) us ts := by
      unfold Token.Alike
      rw [← List.map_take, htake, List.map_take]
    obtain ⟨u, hu, hus⟩ := hfails us halike
    have hsame : us[n]? = ts[n]? := by
      rw [← List.getElem?_take_of_lt (by omega : n < n + 1 + 1), htake,
        List.getElem?_take_of_lt (by omega)]
    obtain rfl : u = t := Option.some.inj (by rw [← hu, hsame, ht])
    exact hus

/-- A name stands where a semicolon is missing: the fault is placed before it, at the value. -/
theorem ofTokens_fails_early_semicolon :
    let ts : List Token := [⟨.identifier "void", ⟨0, 4, 1, 1⟩, "void"⟩, ⟨.identifier "f", ⟨5, 6, 1, 6⟩, "f"⟩,
      ⟨.mark .leftParen, ⟨6, 7, 1, 7⟩, "("⟩, ⟨.mark .rightParen, ⟨7, 8, 1, 8⟩, ")"⟩,
      ⟨.mark .leftBrace, ⟨9, 10, 1, 10⟩, "\x7b"⟩, ⟨.identifier "x", ⟨11, 12, 1, 12⟩, "x"⟩,
      ⟨.identifier "y", ⟨13, 14, 1, 14⟩, "y"⟩]
    let fault : Fault := ⟨.expectedSemicolon, ⟨1, 12⟩⟩
    ofTokens ts = .error fault ∧ ∃ k t, 1 ≤ k ∧ ts[k - 1]? = some t ∧ fault.position = t.position ∧
      (∀ us : List Token, us.take (k + 1) = ts.take (k + 1) → ofTokens us = .error fault) ∧
      ∀ us, Token.Alike (k + 1) us ts →
        ∃ u, us[k - 1]? = some u ∧ ofTokens us = .error ⟨fault.cause, u.position⟩ := by
  intro ts fault
  have h : ofTokens ts = .error fault := by rfl
  exact ⟨h, ofTokens_fails_early h⟩

end Program

end Shading
