import ColumnFlow.Proofs.TokenTiling
import ColumnFlow.Text.Blank
import ColumnFlow.Text.Case
import Mathlib.Data.List.Forall2

/-!
# Letter case

`caseless` writes every ASCII letter of a value small, and two values are `Alike` when they differ in nothing but
the case of such letters. Keys, lower case, upper case and blanks take no notice of it: `fold`, `lower`, `upper`
and `words` treat a text and its caseless form alike.
-/

namespace ColumnFlow

/-! ### Characters and texts -/

namespace Text

/-- The letters that are written differently in lower case. -/
def capitals : List Char := (List.range' 65 26).map Char.ofNat

theorem mem_capitals_of_toLower_ne {c : Char} (changed : c.toLower ≠ c) : c ∈ capitals := by
  unfold Char.toLower at changed
  split at changed
  next range =>
    have low : (65 : UInt32) ≤ c.val := range.1
    have high : c.val ≤ (90 : UInt32) := range.2
    have bounds : 65 ≤ c.toNat ∧ c.toNat < 65 + 26 := by
      simp only [UInt32.le_iff_toNat_le] at low high
      simp at low high
      omega
    exact List.mem_map.mpr ⟨c.toNat, List.mem_range'_1.mpr bounds, Char.ofNat_toNat c⟩
  next => exact absurd rfl changed

/-- What treats each capital as its small letter takes no notice of case. -/
theorem apply_toLower {α : Type} (f : Char → α) (same : capitals.map (fun c => f c.toLower) = capitals.map f)
    (c : Char) : f c.toLower = f c := by
  by_cases unchanged : c.toLower = c
  · rw [unchanged]
  · exact List.map_inj_left.mp same c (mem_capitals_of_toLower_ne unchanged)

variable (s : String) (c : Char)

/-- What is read off a letter, whatever its case. -/
def readings (c : Char) := (fullFold c, lowerChar c, upperChar c, isBlank c, c.utf8Size, c.toLower)

theorem readings_toLower : readings c.toLower = readings c := apply_toLower readings (by decide +kernel) c

@[simp] theorem fullFold_toLower : fullFold c.toLower = fullFold c := congrArg (·.1) (readings_toLower c)

@[simp] theorem lowerChar_toLower : lowerChar c.toLower = lowerChar c := congrArg (·.2.1) (readings_toLower c)

@[simp] theorem upperChar_toLower : upperChar c.toLower = upperChar c := congrArg (·.2.2.1) (readings_toLower c)

@[simp] theorem isBlank_toLower : isBlank c.toLower = isBlank c := congrArg (·.2.2.2.1) (readings_toLower c)

@[simp] theorem utf8Size_toLower : c.toLower.utf8Size = c.utf8Size := congrArg (·.2.2.2.2.1) (readings_toLower c)

@[simp] theorem toLower_toLower : c.toLower.toLower = c.toLower := congrArg (·.2.2.2.2.2) (readings_toLower c)

@[simp] theorem toList_toLower : s.toLower.toList = s.toList.map Char.toLower := String.toList_map

@[simp] theorem toLower_eq_empty : s.toLower = "" ↔ s = "" := String.map_eq_empty

@[simp] theorem toLower_append (s t : String) : (s ++ t).toLower = s.toLower ++ t.toLower := by
  rw [← String.toList_inj]
  simp

@[simp] theorem toLower_ofList (cs : List Char) : (String.ofList cs).toLower = String.ofList (cs.map Char.toLower) := by
  rw [← String.toList_inj]
  simp

theorem toLower_idem : s.toLower.toLower = s.toLower := by
  rw [← String.toList_inj]
  simp

theorem toLower_intercalate (sep : String) (parts : List String) :
    (sep.intercalate parts).toLower = sep.toLower.intercalate (parts.map String.toLower) := by
  induction parts with
  | nil => exact (toLower_eq_empty "").mpr rfl
  | cons part rest ih =>
    cases rest with
    | nil => simp
    | cons next rest => simp_all [String.intercalate_cons_cons]

@[simp] theorem fold_toLower : fold s.toLower = fold s := by simp [fold, List.flatMap_map]

@[simp] theorem lower_toLower : lower s.toLower = lower s := by
  rw [← String.toList_inj]
  simp [lower]

@[simp] theorem upper_toLower : upper s.toLower = upper s := by
  rw [← String.toList_inj]
  simp [upper]

/-- Whether a text starts with a mark that is no letter. -/
theorem head?_toLower (mark : Char) (other : capitals.map (·.toLower == mark) = capitals.map (· == mark)) (s : String) :
    (s.toLower.toList.head? == some mark) = (s.toList.head? == some mark) := by
  cases chars : s.toList with
  | nil => simp [chars]
  | cons c rest => simpa [chars] using apply_toLower (· == mark) other c

theorem cutRuns_toLower (cs : List Char) :
    cutRuns isBlank (cs.map Char.toLower) = (cutRuns isBlank cs).map (List.map Char.toLower) := by
  induction cs with
  | nil => rfl
  | cons c rest ih =>
    cases rest with
    | nil => cases blank : isBlank c <;> simp [cutRuns, blank]
    | cons d rest =>
      rw [List.map_cons] at ih
      rw [List.map_cons, List.map_cons, cutRuns, ih, isBlank_toLower, isBlank_toLower, cutRuns]
      cases isBlank c <;> cases isBlank d <;> cases cutRuns isBlank (d :: rest) <;> rfl

theorem words_toLower : words s.toLower = (words s).map String.toLower := by
  simp [words, cutRuns_toLower]

theorem dropBytes_toLower (n : Nat) (cs : List Char) :
    Extent.dropBytes n (cs.map Char.toLower) = (Extent.dropBytes n cs).map Char.toLower := by
  fun_induction Extent.dropBytes n cs <;> simp_all [Extent.dropBytes]

theorem takeBytes_toLower (n : Nat) (cs : List Char) :
    Extent.takeBytes n (cs.map Char.toLower) = (Extent.takeBytes n cs).map Char.toLower := by
  fun_induction Extent.takeBytes n cs <;> simp_all [Extent.takeBytes]

theorem utf8ByteSize_toLower : s.toLower.utf8ByteSize = s.utf8ByteSize := by
  have bytes (cs : List Char) : byteLength (cs.map Char.toLower) = byteLength cs := by
    induction cs with
    | nil => rfl
    | cons c rest ih => simp [ih]
  simpa [byteLength, ← toLower_ofList] using bytes s.toList

/-- The same range of the text. -/
theorem span_text_toLower (span : Span) (source : String) : span.text source.toLower = (span.text source).toLower := by
  simp only [Span.text, Extent.text, Extent.slice, utf8ByteSize_toLower, toList_toLower, dropBytes_toLower,
    takeBytes_toLower]
  split
  · exact (toLower_eq_empty "").mpr rfl |>.symm
  · rw [toLower_ofList]

end Text

/-! ### Values that hold texts -/

/-- A type whose values have a form in which every letter is small. -/
class Caseless (α : Type) where
  caseless : α → α
  caseless_caseless (a : α) : caseless (caseless a) = caseless a

export Caseless (caseless caseless_caseless)

attribute [simp] caseless_caseless

variable {α β γ : Type}

instance : Caseless String := ⟨String.toLower, Text.toLower_idem⟩

instance : Caseless Unit := ⟨id, fun _ => rfl⟩

instance [Caseless α] : Caseless (List α) := ⟨List.map caseless, fun xs => by simp⟩

instance [Caseless α] : Caseless (Option α) := ⟨Option.map caseless, fun o => by cases o <;> simp⟩

instance [Caseless α] [Caseless β] : Caseless (α × β) := ⟨fun p => (caseless p.1, caseless p.2), fun p => by simp⟩

theorem caseless_string (s : String) : caseless s = s.toLower := rfl

@[simp] theorem caseless_empty : caseless "" = "" := (Text.toLower_eq_empty "").mpr rfl

section

variable [Caseless α] [Caseless β]

@[simp] theorem caseless_cons (a : α) (rest : List α) : caseless (a :: rest) = caseless a :: caseless rest := rfl

@[simp] theorem caseless_append (xs ys : List α) : caseless (xs ++ ys) = caseless xs ++ caseless ys := List.map_append

@[simp] theorem isEmpty_caseless (xs : List α) : (caseless xs).isEmpty = xs.isEmpty := List.isEmpty_map

theorem filter_caseless {p : α → Bool} (kept : ∀ a, p (caseless a) = p a) (xs : List α) :
    (caseless xs).filter p = caseless (xs.filter p) := by
  change (xs.map caseless).filter p = (xs.filter p).map caseless
  rw [List.filter_map, Function.comp_def]
  simp only [kept]

@[simp] theorem caseless_some (a : α) : caseless (some a) = some (caseless a) := rfl

@[simp] theorem caseless_pair (a : α) (b : β) : caseless (a, b) = (caseless a, caseless b) := rfl

end

/-- Two values that differ in nothing but the case of letters. -/
def Alike [Caseless α] (a b : α) : Prop := caseless a = caseless b

namespace Alike

variable [Caseless α] [Caseless β] {a b c : α} {xs ys : List α} {xs' ys' : List β}

theorem refl (a : α) : Alike a a := rfl

theorem symm (h : Alike a b) : Alike b a := Eq.symm h

theorem trans (h : Alike a b) (h' : Alike b c) : Alike a c := Eq.trans h h'

theorem to_caseless (a : α) : Alike a (caseless a) := (caseless_caseless a).symm

/-- A function whose result does not change with the case of its argument. -/
theorem apply {f : α → γ} (insensitive : ∀ a, f a = f (caseless a)) (h : Alike a b) : f a = f b := by
  rw [insensitive a, insensitive b, h]

/-- A function whose result only changes in case with the case of its argument. -/
theorem image {f : α → β} (insensitive : ∀ a, Alike (f a) (f (caseless a))) (h : Alike a b) : Alike (f a) (f b) :=
  apply (f := fun a => caseless (f a)) insensitive h

theorem iff_forall₂ : Alike xs ys ↔ List.Forall₂ Alike xs ys := by
  rw [Alike, ← List.forall₂_eq_eq_eq]
  exact List.forall₂_map_left_iff.trans List.forall₂_map_right_iff

theorem nil : Alike ([] : List α) [] := rfl

theorem cons (head : Alike a b) (tail : Alike xs ys) : Alike (a :: xs) (b :: ys) := by
  rw [Alike, caseless_cons, caseless_cons, head, tail]

theorem pair {d e : β} (left : Alike a b) (right : Alike d e) : Alike (a, d) (b, e) := by
  rw [Alike, caseless_pair, caseless_pair, left, right]

theorem single (h : Alike a b) : Alike [a] [b] := h.cons .nil

theorem append {us vs : List α} (left : Alike xs ys) (right : Alike us vs) : Alike (xs ++ us) (ys ++ vs) := by
  rw [Alike, caseless_append, caseless_append, left, right]

theorem length (h : Alike xs ys) : xs.length = ys.length := (iff_forall₂.mp h).length_eq

theorem isEmpty (h : Alike xs ys) : xs.isEmpty = ys.isEmpty := h.apply fun xs => (isEmpty_caseless xs).symm

theorem map {f g : α → β} (pointwise : ∀ {a b}, Alike a b → Alike (f a) (g b)) (h : Alike xs ys) :
    Alike (xs.map f) (ys.map g) := iff_forall₂.mpr (List.rel_map (fun _ _ same => pointwise same) (iff_forall₂.mp h))

theorem filter {p : α → Bool} (kept : ∀ a, p (caseless a) = p a) (h : Alike xs ys) :
    Alike (xs.filter p) (ys.filter p) := by
  rw [Alike, ← filter_caseless kept, ← filter_caseless kept, h]

theorem zipWith {δ : Type} [Caseless δ] {f g : α → β → δ}
    (pointwise : ∀ {a a' b b'}, Alike a a' → Alike b b' → Alike (f a b) (g a' b')) (left : Alike xs ys)
    (right : Alike xs' ys') : Alike (List.zipWith f xs xs') (List.zipWith g ys ys') := by
  have lefts := iff_forall₂.mp left
  induction lefts generalizing xs' ys' with
  | nil => rfl
  | cons head _ ih =>
    cases iff_forall₂.mp right with
    | nil => rfl
    | cons head' tail' => exact (pointwise head head').cons (ih (iff_forall₂.mpr ‹_›) (iff_forall₂.mpr tail'))

variable {o o' : Option α}

/-- Optional values are alike when both are missing or both are there and alike. -/
theorem option_cases (h : Alike o o') : (o = none ∧ o' = none) ∨ ∃ a b, o = some a ∧ o' = some b ∧ Alike a b := by
  cases o <;> cases o'
  · exact .inl ⟨rfl, rfl⟩
  · cases h
  · cases h
  · exact .inr ⟨_, _, rfl, rfl, Option.some.inj h⟩

theorem some (h : Alike a b) : Alike (some a) (some b) := congrArg Option.some h

theorem getD (h : Alike o o') (default : α) : Alike (o.getD default) (o'.getD default) := by
  obtain ⟨rfl, rfl⟩ | ⟨a, b, rfl, rfl, same⟩ := h.option_cases
  · rfl
  · exact same

theorem toList (h : Alike o o') : Alike o.toList o'.toList := by
  obtain ⟨rfl, rfl⟩ | ⟨a, b, rfl, rfl, same⟩ := h.option_cases
  · rfl
  · exact same.single

theorem concat {s s' t t' : String} (left : Alike s s') (right : Alike t t') : Alike (s ++ t) (s' ++ t') := by
  simp only [Alike, caseless_string, Text.toLower_append] at left right ⊢
  rw [left, right]

end Alike

end ColumnFlow
