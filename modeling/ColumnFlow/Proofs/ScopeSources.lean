import ColumnFlow.Lineage.Query
import ColumnFlow.Proofs.EdgeForm

/-!
# Columns read through a scope

Everything that an expression reads comes from a binding of its scope, or is left unresolved. For a property
`C` of source columns, a scope is proper when every column read through any of its bindings has the property;
then so has every resolved column and every column that a star stands for, and renaming, numbering and merging
of projected columns keep it.
-/

namespace ColumnFlow

variable {C : SourceColumn → Prop}

/-! ### Scopes -/

/-- Every column read through the binding has the property. -/
def Binding.Proper (C : SourceColumn → Prop) (b : Binding) : Prop := ∀ column, C (b.read column)

namespace Scope

/-- Every binding of every level is proper. -/
def Proper (C : SourceColumn → Prop) (s : Scope) : Prop := ∀ level ∈ s.levels, ∀ b ∈ level.tables, b.Proper C

variable {s : Scope} {b : Binding}

namespace Proper

variable (proper : s.Proper C)

include proper

theorem child : s.child.Proper C := by
  intro level member
  rcases List.mem_cons.1 member with rfl | outer
  · exact fun _ found => nomatch found
  · exact proper level outer

theorem bind (added : b.Proper C) : (s.bind b).Proper C := by
  intro level member other found
  rcases List.mem_cons.1 member with rfl | outer
  · rcases List.mem_append.1 found with kept | last
    · exact proper s.level List.mem_cons_self other (List.mem_filter.1 kept).1
    · cases List.mem_singleton.1 last
      exact added
  · exact proper level (List.mem_cons_of_mem _ outer) other found

theorem define (d : CommonDef) : (s.define d).Proper C := by
  intro level member b found
  rcases List.mem_cons.1 member with rfl | outer
  · exact proper s.level List.mem_cons_self b found
  · exact proper level (List.mem_cons_of_mem _ outer) b found

theorem lookup {key : String} (found : s.lookup key = some b) : b.Proper C := by
  obtain ⟨level, member, hit⟩ := List.exists_of_findSome?_eq_some found
  exact proper level member b (List.mem_of_find?_eq_some hit)

theorem candidates {column : String} (member : b ∈ s.candidates column) : b.Proper C := by
  unfold Scope.candidates at member
  cases found : (s.levels.map (·.owners column)).find? (!·.isEmpty) with
  | none => simp [found] at member
  | some owners =>
    rw [found, Option.getD_some] at member
    obtain ⟨level, isLevel, rfl⟩ := List.mem_map.1 (List.mem_of_find?_eq_some found)
    exact proper level isLevel b (List.mem_filter.1 member).1

end Proper

end Scope

/-! ### Resolved columns -/

/-- A column reference is unresolved or read through a binding of the scope. -/
theorem resolveColumn_proper (unbound : ∀ c : SourceColumn, c.kind ≠ some .plain → C c) {s : Scope}
    (proper : s.Proper C) (ref : ColumnRef) : C (resolveColumn ref s) := by
  unfold resolveColumn
  split
  · split
    · rename_i b found
      exact proper.lookup found ref.column
    · exact unbound _ nofun
  · split
    · exact unbound _ nofun
    · rename_i b only
      have member : b ∈ s.candidates ref.column := by simp [only]
      exact proper.candidates member ref.column
    · exact unbound _ nofun

/-- What an expression yields: columns with the property, and a tag that is empty exactly for one column as
it is. -/
structure Sources.Proper (C : SourceColumn → Prop) (sources : Sources) : Prop where
  reads : ∀ c ∈ sources.columns, C c
  tagged : sources.transform.text = "" → sources.transform = .bare
  single : sources.transform = .bare → sources.columns.length = 1

/-- A tag of its own makes any columns proper. -/
theorem Sources.proper_of_tag {columns : List SourceColumn} {transform : Transform}
    (reads : ∀ c ∈ columns, C c) (tag : transform.text ≠ "") :
    Sources.Proper C { columns, transform } where
  reads := reads
  tagged := fun empty => absurd empty tag
  single := fun bare => absurd (by rw [show transform = .bare from bare]; rfl) tag

theorem FuncCall.tag_text_ne_empty (fn : FuncCall) : fn.tag.text ≠ "" := by
  unfold FuncCall.tag
  split
  · decide
  · intro empty
    have := congrArg String.length empty
    simp [Transform.text] at this

theorem SetOp.tag_ne_empty (op : SetOp) (all : Bool) : op.tag all ≠ "" := by
  cases op <;> cases all <;> decide

theorem Transform.compose_text_ne_empty {left right : Transform} (op : String)
    (hl : left.text = "" → left = .bare) (hr : right.text = "" → right = .bare) :
    (left.compose op right).text ≠ "" := by
  unfold Transform.compose
  split
  · intro empty
    have := congrArg String.length empty
    simp [Transform.text] at this
  · exact fun empty => nomatch hl empty
  · exact fun empty => nomatch hr empty
  · decide

theorem Transform.inner_text_ne_empty {t : Transform} (ht : t.text = "" → t = .bare) : t.inner.text ≠ "" := by
  unfold Transform.inner
  split
  · exact fun empty => nomatch ht empty
  · decide

/-! ### Projected columns -/

namespace Column

/-- A projected column is a star or reads proper sources. -/
def Proper (C : SourceColumn → Prop) (c : Column) : Prop := ∀ sources, c.value = .reads sources → sources.Proper C

theorem Proper.withName {c d : Column} (proper : c.Proper C) (same : d.value = c.value) : d.Proper C :=
  fun sources reads => proper sources (same ▸ reads)

theorem Proper.sources {c : Column} (proper : c.Proper C) : ∀ x ∈ c.sources, C x := by
  intro x member
  unfold Column.sources at member
  split at member
  · rename_i sources reads
    exact (proper sources reads).reads x member
  · cases member

variable {cs : List Column}

/-- New names do not touch sources. -/
theorem rename_proper (proper : ∀ c ∈ cs, c.Proper C) (names : List String) : ∀ c ∈ rename cs names, c.Proper C := by
  induction cs generalizing names with
  | nil => simp [rename]
  | cons first rest ih =>
    cases names with
    | nil => simpa [rename] using proper
    | cons name names =>
      have later := ih (fun c member => proper c (List.mem_cons_of_mem _ member)) names
      have head := proper first List.mem_cons_self
      intro c member
      rw [rename] at member
      rcases List.mem_cons.1 member with rfl | found
      · split
        · exact head
        · exact head.withName rfl
      · exact later c found

theorem uniqueNames_go_proper (proper : ∀ c ∈ cs, c.Proper C) (taken : List String) :
    ∀ c ∈ uniqueNames.go taken cs, c.Proper C := by
  induction cs generalizing taken with
  | nil => simp [uniqueNames.go]
  | cons first rest ih =>
    have later := ih fun c member => proper c (List.mem_cons_of_mem _ member)
    have head := proper first List.mem_cons_self
    intro c member
    simp only [uniqueNames.go] at member
    split at member
    · rcases List.mem_cons.1 member with rfl | found
      · exact head
      · exact later _ c found
    · rcases List.mem_cons.1 member with rfl | found
      · exact head.withName rfl
      · exact later _ c found

theorem uniqueNames_proper (proper : ∀ c ∈ cs, c.Proper C) : ∀ c ∈ uniqueNames cs, c.Proper C :=
  uniqueNames_go_proper proper _

/-- A column of a set operation reads what either side reads. -/
theorem merge_proper {c d : Column} {tag : String} (tagged : tag ≠ "") (hc : c.Proper C) (hd : d.Proper C) :
    (merge tag c d).Proper C := by
  unfold merge
  split
  · rename_i left right readsLeft readsRight
    have leftProper := hc left readsLeft
    have rightProper := hd right readsRight
    rintro sources ⟨⟩
    refine Sources.proper_of_tag ?_ ?_
    · intro x member
      rcases List.mem_append.1 member with found | found
      · exact leftProper.reads x found
      · exact rightProper.reads x found
    · split
      · exact tagged
      · rename_i notBare
        exact fun empty => notBare (by simp [leftProper.tagged empty])
  · exact hc

theorem mergeAll_proper {tag : String} (tagged : tag ≠ "") {cs ds : List Column}
    (hc : ∀ c ∈ cs, c.Proper C) (hd : ∀ d ∈ ds, d.Proper C) : ∀ c ∈ mergeAll tag cs ds, c.Proper C := by
  induction cs generalizing ds with
  | nil => simp [mergeAll]
  | cons c cs ih =>
    cases ds with
    | nil => simpa [mergeAll] using hc
    | cons d ds =>
      simp only [mergeAll, List.mem_cons, forall_eq_or_imp] at hc hd ⊢
      exact ⟨merge_proper tagged hc.1 hd.1, ih hc.2 hd.2⟩

/-- A star stands for the columns of the tables, or for itself where they are not known. -/
theorem expand_proper {tables : List Binding} (proper : ∀ b ∈ tables, b.Proper C) (qualifier : String)
    (line : Nat) : ∀ c ∈ expand tables qualifier line, c.Proper C := by
  intro c member
  unfold expand at member
  split at member
  · simp only [List.mem_flatMap, List.mem_map] at member
    obtain ⟨⟨table, columns⟩, paired, name, -, rfl⟩ := member
    rintro sources ⟨⟩
    refine ⟨?_, fun _ => rfl, fun _ => rfl⟩
    intro x found
    cases List.mem_singleton.1 found
    exact proper table (List.of_mem_zip paired).1 name
  · cases List.mem_singleton.1 member
    rintro sources ⟨⟩

theorem ofStar_proper {s : Scope} (proper : s.Proper C) (line : Nat) : ∀ c ∈ ofStar s line, c.Proper C :=
  expand_proper (proper s.level List.mem_cons_self) "" line

theorem ofTableStar_proper {s : Scope} (proper : s.Proper C) (qualifier : String) (line : Nat) :
    ∀ c ∈ ofTableStar s qualifier line, c.Proper C := by
  refine expand_proper (fun b member => ?_) _ line
  rw [Option.mem_toList] at member
  exact proper.lookup member

end Column

theorem projectedSources_proper {cs : List Column} (proper : ∀ c ∈ cs, c.Proper C) :
    ∀ x ∈ projectedSources cs, C x := by
  intro x member
  obtain ⟨c, found, reads⟩ := List.mem_flatMap.1 member
  exact (proper c found).sources x reads

end ColumnFlow
