import ColumnFlow.Project.Discovery
import ColumnFlow.Proofs.DistinctSources
import ColumnFlow.Proofs.Reachability
import Mathlib.Data.List.Forall2

/-!
# The files that are found

The walk below a folder prunes what is hidden or excluded. What it finds is described here without a walk, by the names
that lead from the folder to a file (`DiscoveryOptions.Selects`): a pruned folder takes away just those files that have
it on their way.
-/

namespace ColumnFlow

/-! ### Trees -/

namespace FileTree

/-- No entry of a folder has a name by which a path means something else, and no two have the same one. -/
inductive WellFormed : FileTree → Prop
  | file {content} : WellFormed (.file content)
  | folder {entries : List (String × FileTree)} (plain : ∀ e ∈ entries, e.1 ∉ ["", ".", ".."])
      (distinct : (entries.map Prod.fst).Nodup) (below : ∀ e ∈ entries, WellFormed e.2) : WellFormed (.folder entries)

/-- The names lead to a file. -/
def HasFile (tree : FileTree) (names : Place) : Prop := ∃ content, tree.node? names = some (.file content)

variable {entries : List (String × FileTree)}

/-- Among different names the entry that is found is the only one. -/
theorem lookup_iff_mem (distinct : (entries.map Prod.fst).Nodup) (name : String) (node : FileTree) :
    entries.lookup name = some node ↔ (name, node) ∈ entries := by
  constructor
  · intro found
    obtain ⟨before, behind, rfl, -⟩ := List.lookup_eq_some_iff.1 found
    simp
  · intro member
    obtain ⟨before, behind, rfl⟩ := List.append_of_mem member
    refine List.lookup_eq_some_iff.2 ⟨before, behind, rfl, fun e earlier => ?_⟩
    have apart := (List.nodup_append.1 (List.map_append ▸ distinct)).2.2
    simpa using (apart e.1 (List.mem_map_of_mem earlier) name (by simp)).symm

theorem WellFormed.of_node? {place : Place} {tree node : FileTree} (wf : tree.WellFormed)
    (found : tree.node? place = some node) : node.WellFormed ∧ ∀ name ∈ place, name ∉ ["", ".", ".."] := by
  induction place generalizing tree with
  | nil =>
    cases found
    exact ⟨wf, by simp⟩
  | cons name rest ih =>
    obtain ⟨child, here, below⟩ := Option.bind_eq_some_iff.1 found
    cases wf with
    | file => cases here
    | folder plain distinct wfs =>
      have member := (lookup_iff_mem distinct name child).1 here
      obtain ⟨proper, later⟩ := ih (wfs _ member) below
      exact ⟨proper, List.forall_mem_cons.2 ⟨plain _ member, later⟩⟩

theorem hasFile_folder_cons (distinct : (entries.map Prod.fst).Nodup) (name : String) (names : Place) :
    (folder entries).HasFile (name :: names) ↔ ∃ node, (name, node) ∈ entries ∧ node.HasFile names := by
  simp only [HasFile, ← lookup_iff_mem distinct, node?, child?, FileTree.entries, Option.bind_eq_some_iff]
  constructor
  · rintro ⟨content, node, here, below⟩
    exact ⟨node, here, content, below⟩
  · rintro ⟨node, here, content, below⟩
    exact ⟨content, node, here, below⟩

end FileTree

/-! ### The walk below a folder -/

namespace DiscoveryOptions

/-- The file that the names lead to is one to be found: it has one of the extensions, and neither its name nor that of a
folder on the way to it starts with a dot or is excluded. The way starts at `before`, which has been passed. -/
structure Selects (o : DiscoveryOptions) (before names : Place) : Prop where
  extension : ∃ listed ∈ if o.extensions = [] then [".sql"] else o.extensions,
    Text.equalFold listed (Path.extension ((before ++ names).getLastD "")) = true
  passes : ∀ way name, way ++ [name] <+: names → name.toList.head? ≠ some '.' ∧ ∀ pattern ∈ o.exclude,
    Glob.globMatches pattern name = false ∧
      Glob.globMatches pattern ("/".intercalate (before ++ way ++ [name])) = false

variable {o : DiscoveryOptions}

theorem selects_nil (before : Place) : o.Selects before [] ↔ o.hasExtension (before.getLastD "") = true := by
  have listed : o.hasExtension (before.getLastD "") = true ↔
      ∃ listed ∈ if o.extensions = [] then [".sql"] else o.extensions,
        Text.equalFold listed (Path.extension ((before ++ []).getLastD "")) = true := by
    simp [hasExtension, effectiveExtensions]
  rw [listed]
  exact ⟨Selects.extension, fun extension => ⟨extension, fun way name first => by simp at first⟩⟩

/-- Of the names that start with a dot only those for a folder itself and the one above are not hidden. -/
theorem isHidden_eq_false_iff {name : String} (plain : name ∉ ["", ".", ".."]) :
    isHidden name = false ↔ name.toList.head? ≠ some '.' := by
  simp only [List.mem_cons, List.not_mem_nil, not_or] at plain
  simp [isHidden, plain]

/-- A file is selected below a folder if the folder is not skipped and the file is selected from there on. -/
theorem selects_cons (before : Place) {name : String} (plain : name ∉ ["", ".", ".."]) (names : Place) :
    o.Selects before (name :: names) ↔
      o.isSkipped (before ++ [name]) name = false ∧ o.Selects (before ++ [name]) names := by
  have skips : o.isSkipped (before ++ [name]) name = false ↔ name.toList.head? ≠ some '.' ∧ ∀ pattern ∈ o.exclude,
      Glob.globMatches pattern name = false ∧
        Glob.globMatches pattern ("/".intercalate (before ++ [] ++ [name])) = false := by
    rw [← isHidden_eq_false_iff plain]
    simp [isSkipped, isExcluded, and_comm]
  rw [skips]
  constructor
  · rintro ⟨extension, passes⟩
    refine ⟨passes [] name (by simp), by simpa using extension, fun way last first => ?_⟩
    simpa using passes (name :: way) last (by simpa using first)
  · rintro ⟨here, extension, passes⟩
    refine ⟨by simpa using extension, fun way last first => ?_⟩
    cases way with
    | nil =>
      obtain rfl : last = name := by simpa using first
      exact here
    | cons head way =>
      rw [List.cons_append, List.cons_prefix_cons] at first
      obtain ⟨rfl, first⟩ := first
      simpa using passes way last first

end DiscoveryOptions

theorem names_increasing {α : Type} {entries : List (String × α)} (distinct : (entries.map Prod.fst).Nodup) :
    (entries.mergeSort fun a b => decide (a.1 ≤ b.1)).Pairwise fun a b => a.1 < b.1 := by
  have names : (entries.mergeSort fun a b => decide (a.1 ≤ b.1)).map Prod.fst = sortTexts (entries.map Prod.fst) :=
    List.map_mergeSort fun _ _ _ _ => rfl
  exact List.pairwise_map.1 (names ▸ sortTexts_increasing distinct)

namespace FileTree

variable {o : DiscoveryOptions} {tree : FileTree} {before place : Place}

theorem definitionsOf_eq_map (o : DiscoveryOptions) (names : Place) (entries : List (String × FileTree)) :
    definitionsOf o names entries = entries.map (definitionsOfEntry o names) := by
  induction entries with
  | nil => simp [definitionsOf]
  | cons entry rest ih => simp [definitionsOf, ih]

theorem definitionsOfEntry_eq (e : String × FileTree) : definitionsOfEntry o before e =
    (e.1, if o.isSkipped (before ++ [e.1]) e.1 then []
      else definitionsAt o (before ++ [e.1]) ((before ++ [e.1]).getLastD "") e.2) := by
  rw [definitionsOfEntry, List.getLastD_concat]

/-- What the walk finds: the files to which selected names lead. -/
theorem mem_definitionsAt (wf : tree.WellFormed) :
    place ∈ definitionsAt o before (before.getLastD "") tree ↔
      ∃ names, place = before ++ names ∧ tree.HasFile names ∧ o.Selects before names := by
  induction wf generalizing before with
  | @file content =>
    rw [definitionsAt, List.mem_ite_nil_right, List.mem_singleton, ← o.selects_nil]
    constructor
    · rintro ⟨selected, rfl⟩
      exact ⟨[], by simp, ⟨content, rfl⟩, selected⟩
    · rintro ⟨_ | ⟨name, names⟩, rfl, ⟨_, found⟩, selected⟩
      · exact ⟨selected, by simp⟩
      · cases found
  | @folder entries plain distinct wfs ih =>
    -- A place is found below an entry that is not skipped; its names from there on are selected by induction.
    simp only [definitionsAt, inNameOrder, definitionsOf_eq_map, List.mem_flatMap, List.mem_mergeSort, List.mem_map]
    constructor
    · rintro ⟨_, ⟨⟨child, node⟩, known, rfl⟩, member⟩
      rw [definitionsOfEntry_eq, List.mem_ite_nil_left] at member
      obtain ⟨names, rfl, isFile, selected⟩ := (ih _ known).1 member.2
      exact ⟨child :: names, by simp, (hasFile_folder_cons distinct ..).2 ⟨node, known, isFile⟩,
        (o.selects_cons before (plain _ known) names).2 ⟨by simpa using member.1, selected⟩⟩
    · rintro ⟨_ | ⟨child, names⟩, rfl, isFile, selected⟩
      · obtain ⟨content, found⟩ := isFile
        cases found
      · obtain ⟨node, known, isFile⟩ := (hasFile_folder_cons distinct ..).1 isFile
        obtain ⟨shown, selected⟩ := (o.selects_cons before (plain _ known) names).1 selected
        refine ⟨_, ⟨_, known, rfl⟩, ?_⟩
        rw [definitionsOfEntry_eq, List.mem_ite_nil_left]
        exact ⟨by simpa using shown, (ih _ known).2 ⟨names, by simp, isFile, selected⟩⟩

/-- Files come in the order of their names, folder by folder. -/
theorem definitionsAt_increasing (wf : tree.WellFormed) :
    (definitionsAt o before (before.getLastD "") tree).Pairwise (· < ·) := by
  induction wf generalizing before with
  | file =>
    rw [definitionsAt]
    split_ifs <;> simp
  | @folder entries _ distinct wfs ih =>
    have names : (entries.map (definitionsOfEntry o before)).map Prod.fst = entries.map Prod.fst := by
      simp [definitionsOfEntry_eq]
    have starts {e : String × FileTree} (known : e ∈ entries) {place : Place}
        (member : place ∈ (definitionsOfEntry o before e).2) :
        ∃ names, place = before ++ (definitionsOfEntry o before e).1 :: names := by
      rw [definitionsOfEntry_eq] at member ⊢
      obtain ⟨names, rfl, -⟩ := (mem_definitionsAt (wfs _ known)).1 (List.mem_ite_nil_left.1 member).2
      exact ⟨names, by simp⟩
    rw [definitionsAt, inNameOrder, definitionsOf_eq_map, List.pairwise_flatMap]
    constructor
    · intro e listed
      obtain ⟨⟨child, node⟩, known, rfl⟩ := List.mem_map.1 (List.mem_mergeSort.1 listed)
      rw [definitionsOfEntry_eq]
      split_ifs
      · exact List.Pairwise.nil
      · exact ih _ known
    · -- Places below two entries differ first in the names of these.
      refine (names_increasing (names ▸ distinct)).imp_of_mem fun {a b} listedA listedB less x memberA y memberB => ?_
      obtain ⟨e, known, rfl⟩ := List.mem_map.1 (List.mem_mergeSort.1 listedA)
      obtain ⟨e', known', rfl⟩ := List.mem_map.1 (List.mem_mergeSort.1 listedB)
      obtain ⟨namesA, rfl⟩ := starts known memberA
      obtain ⟨namesB, rfl⟩ := starts known' memberB
      exact List.append_left_lt (List.cons_lt_cons_iff.2 (.inl less))

end FileTree

/-! ### Roots -/

namespace Path

theorem cleanNames_append {names : List String} (plain : ∀ name ∈ names, name ∉ ["", ".", ".."])
    (kept rest : List String) :
    cleanNames true kept (names ++ rest) = cleanNames true (names.reverse ++ kept) rest := by
  induction names generalizing kept with
  | nil => rfl
  | cons name names ih =>
    obtain ⟨first, later⟩ := List.forall_mem_cons.1 plain
    simp only [List.mem_cons, List.not_mem_nil, or_false, not_or] at first
    simp [cleanNames, first, ih later]

/-- The names of a path that leads somewhere are cleaned to the place it leads to. -/
theorem cleanNames_of_follow {tree : FileTree} {place led : Place} {names : List String}
    (plain : ∀ name ∈ place, name ≠ "..") (follows : tree.follow place names = .ok led) :
    cleanNames true place.reverse names = led := by
  induction names generalizing place with
  | nil => simpa [FileTree.follow, cleanNames] using follows
  | cons name rest ih =>
    rw [FileTree.follow] at follows
    split at follows
    · split_ifs at follows with stays up long known
      · rw [← ih plain follows]
        simp [cleanNames, stays]
      · rw [← ih (fun n member => plain n (List.mem_of_mem_dropLast member)) follows]
        -- The name that `..` takes away is not a `..` itself, so the text loses it as well.
        cases place using List.reverseRecOn with
        | nil => simp [cleanNames, stays, up]
        | append_singleton before last =>
          have other : last ≠ ".." := plain last (by simp)
          simp [cleanNames, stays, up, other]
      · rw [← ih (List.forall_mem_append.2 ⟨plain, by simpa using up⟩) follows]
        simp [cleanNames, stays, up]
    all_goals cases follows

end Path

theorem mapM_ok {α β ε : Type} {f : α → Except ε β} {g : α → β} {items : List α}
    (each : ∀ a ∈ items, f a = .ok (g a)) : items.mapM f = .ok (items.map g) := by
  induction items with
  | nil => rfl
  | cons a rest ih =>
    obtain ⟨first, later⟩ := List.forall_mem_cons.1 each
    rw [List.mapM_cons, first, ih later]
    rfl

namespace Workspace

variable {w : Workspace} {o : DiscoveryOptions} {root : String}

/-- What a root adds to the files that are found: itself if it is a file, and what the options select below it if it is
a folder, in the order of a walk. -/
inductive Contributes (w : Workspace) (o : DiscoveryOptions) (root : String) : List Place → Prop where
  | file {place : Place} {content : String} (found : w.find root = .ok (place, .file content)) :
    Contributes w o root [place]
  | folder {place : Place} {entries : List (String × FileTree)} {files : List Place}
      (found : w.find root = .ok (place, .folder entries)) (ordered : files.Pairwise (· < ·))
      (selected : ∀ file, file ∈ files ↔ ∃ names, file = place ++ names ∧ (FileTree.folder entries).HasFile names ∧
        o.Selects [] names) :
    Contributes w o root files

variable {place : Place} {node : FileTree}

theorem find_inv (found : w.find root = .ok (place, node)) :
    w.tree.follow (if Path.isAbsolute root then [] else w.folder) (Path.parts root) = .ok place ∧
      w.tree.node? place = some node := by
  rw [find] at found
  dsimp only at found
  generalize w.tree.follow _ _ = followed at found
  split at found
  · cases found
  split at found
  · cases found
  split at found
  · cases found
  cases followed with
  | error fault => cases found
  | ok led =>
    rw [show (Except.ok led : Except PathFault _) = pure led from rfl, pure_bind] at found
    split at found <;> cases found
    exact ⟨rfl, ‹_›⟩

/-- Following a path in the tree leads to the place that its text names. -/
theorem place_of_find (wf : w.tree.WellFormed) (standing : (w.tree.node? w.folder).isSome = true)
    (found : w.find root = .ok (place, node)) : Path.place w.folder root = place := by
  obtain ⟨follows, -⟩ := find_inv found
  obtain ⟨here, known⟩ := Option.isSome_iff_exists.1 standing
  have plain := (wf.of_node? known).2
  rw [Path.place]
  split_ifs at follows ⊢
  · exact Path.cleanNames_of_follow (by simp) follows
  · rw [Path.cleanNames_append plain, List.append_nil]
    exact Path.cleanNames_of_follow (fun name member same => plain name member (by simp [same])) follows

variable (wf : w.tree.WellFormed) (standing : (w.tree.node? w.folder).isSome = true)

include wf standing

/-- A root that exists contributes itself, if it is a file, or what is selected below it. -/
theorem discoverRoot_ok (known : w.exists? root = true) :
    ∃ files, w.discoverRoot o root = .ok files ∧ w.Contributes o root files := by
  cases found : w.find root with
  | error fault => simp [exists?, found] at known
  | ok pair =>
    obtain ⟨place, node⟩ := pair
    have same := place_of_find wf standing found
    cases node with
    | file content =>
      refine ⟨_, ?_, .file found⟩
      rw [discoverRoot, found, same]
      rfl
    | folder entries =>
      have below := (wf.of_node? (find_inv found).2).1
      refine ⟨(FileTree.definitionsAt o [] "" (.folder entries)).map (place ++ ·), ?_, .folder found ?_ ?_⟩
      · rw [discoverRoot, found, same, FileTree.definitionsAt]
        rfl
      · exact List.pairwise_map.2 ((@FileTree.definitionsAt_increasing o _ [] below).imp List.append_left_lt)
      · intro file
        have selected {names : Place} := @FileTree.mem_definitionsAt o _ [] names below
        simp only [List.getLastD_nil, List.nil_append, exists_eq_left'] at selected
        simp only [List.mem_map, selected, and_comm, eq_comm]

theorem discover_ok {roots : List String} (known : ∀ root ∈ roots, w.exists? root = true) :
    ∃ parts, w.discover o roots = .ok (distinctBy Path.ofPlace parts.flatten) ∧
      List.Forall₂ (w.Contributes o) roots parts := by
  choose! files found contributes using fun root member => @discoverRoot_ok w o root wf standing (known root member)
  refine ⟨roots.map files, ?_, List.forall₂_map_right_iff.2 (List.forall₂_same.2 contributes)⟩
  rw [discover, mapM_ok fun root member => by rw [found root member]]
  rfl

end Workspace

/-- Where every root leads to something, discovery succeeds. Its result is what the roots contribute, one after the
other, without the files whose path has come before. -/
theorem discovery_exact {w : Workspace} (wf : w.tree.WellFormed) (standing : (w.tree.node? w.folder).isSome = true)
    (o : DiscoveryOptions) {roots : List String} (known : ∀ root ∈ roots, w.exists? root = true) :
    ∃ parts files, List.Forall₂ (w.Contributes o) roots parts ∧ w.discover o roots = .ok files ∧
      (files.map Path.ofPlace).Nodup ∧
      files = (parts.flatten.zipIdx.filter fun p =>
        Path.ofPlace p.1 ∉ (parts.flatten.take p.2).map Path.ofPlace).map Prod.fst := by
  obtain ⟨parts, found, contributes⟩ := Workspace.discover_ok wf standing known
  exact ⟨parts, _, contributes, found, distinctBy_keys_nodup _, distinctBy_eq_firsts _⟩

/-- A root is found below another one unless it is excluded there, and once. -/
theorem discovery_exact_overlapping :
    let w : Workspace := { tree := .folder [("y", .folder [("b.SQL", .file "")])], folder := ["y"] }
    let o : DiscoveryOptions := { exclude := ["y"] }
    let roots := ["/", "b.SQL", "../y/"]
    w.discover o roots = .ok [["y", "b.SQL"]] ∧ ∃ parts, List.Forall₂ (w.Contributes o) roots parts := by
  intro w o roots
  have wf : w.tree.WellFormed := by simp [w, FileTree.WellFormed.folder, FileTree.WellFormed.file]
  have known : ∀ root ∈ roots, w.exists? root = true := by decide +kernel
  obtain ⟨parts, files, contributes, -⟩ := discovery_exact wf rfl o known
  exact ⟨by decide +kernel, parts, contributes⟩

end ColumnFlow
