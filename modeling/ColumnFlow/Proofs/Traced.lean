import ColumnFlow.Lineage.Trace
import Mathlib.Data.List.Forall2

/-!
# What traced computations guarantee

`Alongside R Q x y` says that the values of `x` and `y` are related by `Q`, and their events by `R` one by one. Mostly
both have one value that satisfies a property (`One`). Two chains of traced computations are followed step by step with
`Alongside.bind`; the values of each step may be used in the next one, and what has been guaranteed of the events never
has to be looked at again. Where `R` looks only at the events of `x` this tells what `x` guarantees on its own: `Ensures`.
-/

namespace ColumnFlow.Traced

variable {α β : Type} {P : Event → Prop} {R : Event → Event → Prop} {Q : α → α → Prop} {Q' : β → β → Prop} {q : α → Prop}

structure Ensures (P : Event → Prop) (q : α → Prop) (x : Traced α) : Prop where
  events : ∀ event ∈ x.events, P event
  value : q x.value

/-- The values are one, which satisfies the property. -/
def One (q : α → Prop) (a b : α) : Prop := b = a ∧ q a

/-- The values are one list, whose members satisfy the property. -/
abbrev Each (q : α → Prop) : List α → List α → Prop := One fun as => ∀ a ∈ as, q a

structure Alongside (R : Event → Event → Prop) (Q : α → α → Prop) (x y : Traced α) : Prop where
  events : List.Forall₂ R x.events y.events
  value : Q x.value y.value

namespace Alongside

/-- Values that are related. -/
theorem both {a b : α} (related : Q a b) : Alongside R Q (Pure.pure a) (Pure.pure b) := ⟨.nil, related⟩

protected theorem pure {a : α} (holds : q a) : Alongside R (One q) (Pure.pure a) (Pure.pure a) := .both ⟨rfl, holds⟩

theorem bindBoth {x y : Traced α} {f g : α → Traced β} (first : Alongside R Q x y)
    (next : ∀ a b, Q a b → Alongside R Q' (f a) (g b)) : Alongside R Q' (x >>= f) (y >>= g) :=
  have rest := next x.value y.value first.value
  ⟨List.rel_append first.events rest.events, rest.value⟩

protected theorem bind {x y : Traced α} {f g : α → Traced β} (first : Alongside R (One q) x y)
    (next : ∀ a, q a → Alongside R Q' (f a) (g a)) : Alongside R Q' (x >>= f) (y >>= g) := by
  refine first.bindBoth fun a b one => ?_
  obtain ⟨rfl, holds⟩ := one
  exact next b holds

theorem record {event event' : Event} (holds : R event event') :
    Alongside R (One fun _ => True) (Traced.record event) (Traced.record event') := ⟨.cons holds .nil, rfl, trivial⟩

/-- Events that are made of the same things. -/
theorem recordMap {γ : Type} {made made' : γ → Event} {things : List γ} (holds : ∀ a ∈ things, R (made a) (made' a)) :
    Alongside R (One fun _ => True) (Traced.recordAll (things.map made)) (Traced.recordAll (things.map made')) := by
  refine ⟨?_, rfl, trivial⟩
  change List.Forall₂ R (things.map made) (things.map made')
  rw [List.forall₂_map_left_iff, List.forall₂_map_right_iff, List.forall₂_same]
  exact holds

theorem discard {x y : Traced α} (h : Alongside R Q x y) :
    Alongside R (One fun _ => True) (Functor.discard x) (Functor.discard y) := h.bindBoth fun _ _ _ => .pure trivial

/-- What is known of the events of the first computation alone. -/
theorem ensures {x y : Traced α} (h : Alongside (fun event _ => P event) (One q) x y) : Ensures P q x := by
  refine ⟨fun event member => ?_, h.value.2⟩
  obtain ⟨i, lt, rfl⟩ := List.getElem_of_mem member
  have lt' : i < y.events.length := h.events.length_eq ▸ lt
  exact List.Forall₂.get h.events lt lt'

end Alongside

end ColumnFlow.Traced
