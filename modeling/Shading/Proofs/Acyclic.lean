import Mathlib.Data.Fintype.Card
import Mathlib.Data.Set.Finite.Basic
import Mathlib.Logic.Relation

/-!
# Relations without loops

What keeps a relation free of loops when edges are added or taken away, and why a loop-free relation
with finitely many inner points has no endless walk.

* `Acyclic.of_sink` — new edges may lead into a point from which none goes out;
* `Acyclic.add_edge` — one new edge, if nothing leads back along it;
* `Acyclic.wellFounded` — walks come to an end.
-/

namespace Shading

open Relation

variable {α : Type*} {r r' : α → α → Prop}

/-- No walk along edges comes back to where it began. -/
def Acyclic (r : α → α → Prop) : Prop := ∀ a, ¬ TransGen r a a

namespace Acyclic

theorem mono (h : Acyclic r) (hr : ∀ a b, r' a b → r a b) : Acyclic r' :=
  fun a ha => h a (TransGen.mono hr _ _ ha)

/-- **New edges into a sink.**  A walk that reaches the sink ends there, so it cannot close a loop. -/
theorem of_sink {i : α} (h : Acyclic r) (hr : ∀ a b, r' a b → r a b ∨ b = i) (hi : ∀ b, ¬ r' i b) :
    Acyclic r' := by
  have walk : ∀ a b, TransGen r' a b → TransGen r a b ∨ b = i := by
    intro a b hab
    induction hab with
    | single hab => exact (hr _ _ hab).imp_left .single
    | tail _ hbc ih =>
      rcases ih with ih | rfl
      · exact (hr _ _ hbc).imp_left ih.tail
      · exact absurd hbc (hi _)
  intro a ha
  rcases walk a a ha with h' | rfl
  · exact h a h'
  · obtain ⟨b, hb, -⟩ := TransGen.head'_iff.1 ha
    exact hi b hb

/-- **One new edge** from `i` to `d`, when `d` does not lead to `i`. -/
theorem add_edge {i d : α} (h : Acyclic r) (hr : ∀ a b, r' a b → r a b ∨ a = i ∧ b = d)
    (hd : ¬ ReflTransGen r d i) : Acyclic r' := by
  -- a walk takes the new edge at most once, since it would have to come back from `d` to `i`
  have walk : ∀ a b, TransGen r' a b → TransGen r a b ∨ ReflTransGen r a i ∧ ReflTransGen r d b := by
    intro a b hab
    induction hab with
    | single hab =>
      rcases hr _ _ hab with h1 | ⟨rfl, rfl⟩
      · exact .inl (.single h1)
      · exact .inr ⟨.refl, .refl⟩
    | tail _ hbc ih =>
      rcases ih with ih | ⟨h1, h2⟩ <;> rcases hr _ _ hbc with h3 | ⟨rfl, rfl⟩
      · exact .inl (ih.tail h3)
      · exact .inr ⟨ih.to_reflTransGen, .refl⟩
      · exact .inr ⟨h1, h2.tail h3⟩
      · exact absurd h2 hd
  intro a ha
  rcases walk a a ha with h' | ⟨h1, h2⟩
  · exact h a h'
  · exact hd (h2.trans h1)

/-- **Walks come to an end** when only finitely many points have an edge in and an edge out. -/
theorem wellFounded (h : Acyclic r) (hfin : {b | (∃ a, r a b) ∧ ∃ c, r b c}.Finite) :
    WellFounded fun b a => r a b := by
  let S := {b | (∃ a, r a b) ∧ ∃ c, r b c}
  have : Finite S := hfin
  let r₀ : S → S → Prop := fun b a => TransGen r a b
  have : IsTrans S r₀ := ⟨fun _ _ _ h1 h2 => h2.trans h1⟩
  have : Std.Irrefl r₀ := ⟨fun a => h a⟩
  have hS : WellFounded r₀ := Finite.wellFounded_of_trans_of_irrefl r₀
  have inner : ∀ b : S, Acc (fun b a => r a b) (b : α) := by
    intro b
    induction b using hS.induction with
    | _ b ih =>
      refine ⟨_, fun c hc => ?_⟩
      by_cases hout : ∃ d, r c d
      · exact ih ⟨c, ⟨_, hc⟩, hout⟩ (.single hc)
      · exact ⟨_, fun d hd => absurd ⟨d, hd⟩ hout⟩
  refine ⟨fun a => ⟨_, fun b hb => ?_⟩⟩
  by_cases hout : ∃ c, r b c
  · exact inner ⟨b, ⟨_, hb⟩, hout⟩
  · exact ⟨_, fun c hc => absurd ⟨c, hc⟩ hout⟩

end Acyclic

end Shading
