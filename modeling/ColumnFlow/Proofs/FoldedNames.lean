import ColumnFlow.Text.Case
import Mathlib.Data.List.Chain

/-!
# Keys of names

A key is made character by character, so the key of a text is made of the keys of its parts. A character never
vanishes, and only a mark becomes a mark. What stands before a double colon can therefore be read off a key.
-/

namespace ColumnFlow.Text

theorem fold_append (s t : String) : fold (s ++ t) = fold s ++ fold t := by
  rw [← String.toList_inj]
  simp [fold]

theorem length_fold_append (s t : String) : (fold (s ++ t)).length = (fold s).length + (fold t).length := by
  rw [fold_append, String.length_append]

/-! ### Marks and colons -/

/-- Folding outside ASCII, where the tables decide. -/
theorem fullFold_of_le {c : Char} (wide : 0x80 ≤ c.toNat) :
    fullFold c = match longFolds.lookup c.toNat with
      | some codes => codes.map Char.ofNat
      | none => [Char.ofNat (CaseRun.image (tradedRuns ++ foldRuns) c.toNat)] := by
  have unfolded : fullFold c =
      if c.toNat < 0x80 then [if c.toNat < 0x80 then if c.isUpper then Char.ofNat (c.toNat + 32 : Int).toNat else c
        else Char.ofNat (CaseRun.image (tradedRuns ++ foldRuns) c.toNat)]
      else match longFolds.lookup c.toNat with
      | some codes => codes.map Char.ofNat
      | none => [if c.toNat < 0x80 then if c.isUpper then Char.ofNat (c.toNat + 32 : Int).toNat else c
        else Char.ofNat (CaseRun.image (tradedRuns ++ foldRuns) c.toNat)] := rfl
  simpa [Nat.not_lt.2 wide] using unfolded

theorem le_image {runs : List CaseRun} (high : ∀ run ∈ runs, 0x41 ≤ run.first + run.shift) {code : Nat}
    (wide : 0x80 ≤ code) : 0x41 ≤ CaseRun.image runs code := by
  unfold CaseRun.image
  split
  · rename_i run found
    have above := high run (List.mem_of_find?_eq_some found)
    have covered := List.find?_some found
    simp only [CaseRun.covers, Bool.and_eq_true, decide_eq_true_eq] at covered
    omega
  · omega

/-- The tables of the full folding, checked entry by entry. -/
theorem longFolds_entries : ∀ entry ∈ longFolds, entry.2 ≠ [] ∧ ∀ code ∈ entry.2, 0x41 ≤ code := by decide +kernel

theorem foldRuns_high : ∀ run ∈ tradedRuns ++ foldRuns, 0x41 ≤ run.first + run.shift := by decide +kernel

theorem fullFold_ascii : ∀ code < 0x80, fullFold (Char.ofNat code) ≠ [] ∧
    (fullFold (Char.ofNat code)).all (fun c => 0x41 ≤ c.toNat ∨ c = Char.ofNat code) = true := by
  decide +kernel

theorem longFolds_lookup {code : Nat} {codes : List Nat} (found : longFolds.lookup code = some codes) :
    codes ≠ [] ∧ ∀ code ∈ codes, 0x41 ≤ code := by
  obtain ⟨before, behind, entries, -⟩ := List.lookup_eq_some_iff.1 found
  exact longFolds_entries (code, codes) (entries ▸ List.mem_append_right before List.mem_cons_self)

theorem fullFold_ne_nil (c : Char) : fullFold c ≠ [] := by
  by_cases narrow : c.toNat < 0x80
  · have checked := (fullFold_ascii c.toNat narrow).1
    rwa [Char.ofNat_toNat] at checked
  · rw [fullFold_of_le (Nat.not_lt.1 narrow)]
    split
    · rename_i codes found
      simpa using (longFolds_lookup found).1
    · exact List.cons_ne_nil _ _

/-- A character below the letters. -/
def IsMark (c : Char) : Prop := 0 < c.toNat ∧ c.toNat < 0x41

theorem IsMark.ne_ofNat {mark : Char} (low : IsMark mark) {code : Nat} (high : 0x41 ≤ code) : mark ≠ Char.ofNat code := by
  rintro rfl
  obtain ⟨positive, below⟩ := low
  by_cases valid : code.isValidChar
  · rw [Char.ofNat, dif_pos valid] at below
    exact absurd below (Nat.not_lt.2 high)
  · rw [Char.ofNat, dif_neg valid] at positive
    cases positive

/-- A mark is only made of itself. -/
theorem IsMark.eq_of_mem_fullFold {mark c : Char} (low : IsMark mark) (member : mark ∈ fullFold c) : c = mark := by
  by_cases narrow : c.toNat < 0x80
  · have checked := (fullFold_ascii c.toNat narrow).2
    rw [Char.ofNat_toNat] at checked
    have either := of_decide_eq_true (List.all_eq_true.1 checked mark member)
    exact (either.resolve_left (Nat.not_le.2 low.2)).symm
  · have wide := Nat.not_lt.1 narrow
    rw [fullFold_of_le wide] at member
    split at member
    · rename_i codes found
      obtain ⟨code, inside, same⟩ := List.mem_map.1 member
      exact absurd same.symm (low.ne_ofNat ((longFolds_lookup found).2 code inside))
    · exact absurd (List.mem_singleton.1 member) (low.ne_ofNat (le_image foldRuns_high wide))

theorem eq_colon_of_mem_fullFold {c : Char} (colon : ':' ∈ fullFold c) : c = ':' :=
  IsMark.eq_of_mem_fullFold ⟨by decide, by decide⟩ colon

/-- Two characters that are not both colons. -/
def NotColons (a b : Char) : Prop := ¬(a = ':' ∧ b = ':')

instance (a b : Char) : Decidable (NotColons a b) := inferInstanceAs (Decidable (¬(a = ':' ∧ b = ':')))

/-- No two colons of a text stand side by side. -/
def ColonsApart (s : String) : Prop := s.toList.IsChain NotColons

instance (s : String) : Decidable (ColonsApart s) := inferInstanceAs (Decidable (s.toList.IsChain NotColons))

theorem isChain_fullFold (c : Char) : (fullFold c).IsChain NotColons := by
  by_cases colon : c = ':'
  · subst colon
    exact .singleton ':'
  · have none : ':' ∉ fullFold c := mt eq_colon_of_mem_fullFold colon
    refine (List.pairwise_of_forall_mem_list ?_).isChain
    rintro a member b - ⟨rfl, -⟩
    exact none member

/-- Folding makes no two colons meet that did not: no character but a colon folds to one. -/
theorem isChain_flatMap_fullFold {cs : List Char} (apart : cs.IsChain NotColons) :
    (cs.flatMap fullFold).IsChain NotColons := by
  induction cs with
  | nil => exact .nil
  | cons c rest ih =>
    rw [List.flatMap_cons, List.isChain_append]
    refine ⟨isChain_fullFold c, ih apart.tail, ?_⟩
    -- Two colons that meet come from two characters that meet.
    rintro a last b first ⟨rfl, rfl⟩
    have here : c = ':' := eq_colon_of_mem_fullFold (List.mem_of_getLast? last)
    cases rest with
    | nil => cases first
    | cons d more =>
      rw [List.flatMap_cons, List.head?_append_of_ne_nil _ (fullFold_ne_nil d)] at first
      have next : d = ':' := eq_colon_of_mem_fullFold (List.mem_of_head? first)
      exact apart.rel ⟨here, next⟩

theorem ColonsApart.fold {s : String} (apart : ColonsApart s) : ColonsApart (fold s) := by
  unfold ColonsApart
  rw [Text.fold, String.toList_ofList]
  exact isChain_flatMap_fullFold apart

theorem not_colonsApart (s t : String) : ¬ColonsApart (s ++ "::" ++ t) := by
  intro apart
  have chain : (s.toList ++ ':' :: ':' :: t.toList).IsChain NotColons := by simpa [ColonsApart] using apart
  exact (List.isChain_append.1 chain).2.1.rel ⟨rfl, rfl⟩

/-- Of a text that ends in a single colon nothing more than that colon stands before a double colon. -/
theorem isChain_append_colons {as bs cs ds : List Char} (apart : (as ++ [':']).IsChain NotColons)
    (same : as ++ ':' :: ':' :: cs = bs ++ ':' :: ':' :: ds) : as <+: bs := by
  obtain ⟨more, rfl, -⟩ | ⟨more, rfl, rest⟩ := List.append_eq_append_iff.1 same
  · exact ⟨more, rfl⟩
  · rw [List.append_assoc] at apart
    have chain := (List.isChain_append.1 apart).2.1
    cases more with
    | nil => simp
    | cons a more =>
      obtain ⟨rfl, tails⟩ := List.cons.inj rest
      cases more with
      | nil => exact absurd ⟨rfl, rfl⟩ chain.rel
      | cons b more =>
        obtain ⟨rfl, -⟩ := List.cons.inj tails
        exact absurd ⟨rfl, rfl⟩ chain.rel

/-- Where no colons stand side by side in front of a double colon, what stands in front of it is known. -/
theorem append_colons_inj {s s' t t' : String} (apart : ColonsApart (s ++ ":")) (apart' : ColonsApart (s' ++ ":"))
    (same : s ++ "::" ++ t = s' ++ "::" ++ t') : s = s' ∧ t = t' := by
  have chars : s.toList ++ ':' :: ':' :: t.toList = s'.toList ++ ':' :: ':' :: t'.toList := by
    simpa using congrArg String.toList same
  have one : s.toList <+: s'.toList := isChain_append_colons (by simpa [ColonsApart] using apart) chars
  have two : s'.toList <+: s.toList := isChain_append_colons (by simpa [ColonsApart] using apart') chars.symm
  obtain rfl := String.toList_inj.1 (one.eq_of_length_le two.length_le)
  exact ⟨rfl, String.append_right_inj _ |>.1 same⟩

end ColumnFlow.Text
