/-
# What making directories and writing files touches

Making a directory changes nothing but places that its own path passes through, and
there only what was missing. Writing a file in it changes the place of that file and
no other. Both keep every directory where it is, so a path that leads somewhere goes
on leading there, and what several steps touch can be said of the tree behind the
last of them.
-/

import InvertibleNet.Proofs.Storage.FileTree
import Mathlib.Data.List.DropRight
import Mathlib.Order.Defs.Unbundled

namespace InvertibleNet

/-! ## Parts of a path -/

theorem not_mem_of_mem_splitOn {separator : Char} {characters part : List Char}
    (member : part ∈ characters.splitOn separator) : separator ∉ part := by
  induction characters generalizing part with
  | nil =>
      rw [List.splitOn_eq_singleton List.not_mem_nil, List.mem_singleton] at member
      rw [member]
      exact List.not_mem_nil
  | cons first rest ih =>
      rw [List.splitOn_cons_eq_if_modifyHead] at member
      split at member
      · rcases List.mem_cons.mp member with rfl | behind
        · exact List.not_mem_nil
        · exact ih behind
      · next apart =>
        cases parts : rest.splitOn separator with
        | nil => simp [parts] at member
        | cons head tail =>
            rw [parts, List.modifyHead_cons, List.mem_cons] at member
            rcases member with rfl | behind
            · rw [List.mem_cons, not_or]
              refine ⟨fun same => apart (by simp [same]), ih ?_⟩
              rw [parts]
              exact List.mem_cons_self
            · exact ih (parts ▸ List.mem_cons_of_mem head behind)

/-- No part of a path holds a slash. -/
theorem slash_not_mem_of_mem_pathParts {path part : String} (member : part ∈ pathParts path) :
    '/' ∉ part.toList := by
  obtain ⟨characters, inside, rfl⟩ := List.mem_map.mp member
  rw [String.toList_ofList]
  exact not_mem_of_mem_splitOn inside

theorem pathNames_subset {path name : String} (member : name ∈ pathNames path) :
    name ∈ pathParts path := by
  unfold pathNames at member
  split at member
  · cases member
  · next first rest parts =>
    rw [parts]
    rcases List.mem_append.mp member with front | behind
    · split at front
      · cases front
      · rw [List.mem_singleton.mp front]
        exact List.mem_cons_self
    · exact List.mem_cons_of_mem first (List.mem_filter.mp behind).1

/-- Parts that are joined with slashes are found again. -/
theorem pathParts_intercalate {names : List String} (nonempty : names ≠ [])
    (plain : ∀ name ∈ names, '/' ∉ name.toList) : pathParts ("/".intercalate names) = names := by
  unfold pathParts
  rw [String.toList_intercalate, show "/".toList = ['/'] from rfl, List.splitOn_intercalate]
  · simp
  · simpa using plain
  · simpa using nonempty

/-- A path without the slashes at its end is the front of the path. -/
theorem pathParts_withoutTrailingSlashes (path : String) :
    pathParts (withoutTrailingSlashes path) <+: pathParts path := by
  have characters (text : List Char) :
      pathParts (String.ofList (text.rdropWhile (· = '/'))) <+: pathParts (String.ofList text) := by
    induction text using List.reverseRecOn with
    | nil => exact List.prefix_refl _
    | append_singleton front last ih =>
        by_cases slash : last = '/'
        · rw [List.rdropWhile_concat_pos _ _ _ (by simp [slash])]
          have longer := FileTree.pathParts_append (String.ofList front) ""
          rw [String.append_empty] at longer
          rw [slash, String.ofList_append, show String.ofList ['/'] = "/" from rfl, longer]
          exact ih.trans (List.prefix_append _ _)
        · have whole : (front ++ [last]).rdropWhile (· = '/') = front ++ [last] :=
            List.rdropWhile_concat_neg _ _ _ (by simp [slash])
          simp only [whole, List.prefix_refl]
  have whole := characters path.toList
  rwa [String.ofList_toList] at whole

namespace FileTree

variable {tree other third : FileTree} {directory path : String} {location target : Location}

/-! ## Directories that stay -/

/-- Whether all directories of a tree are directories of another. -/
def KeepsDirectories (tree other : FileTree) : Prop :=
  ∀ location, tree.find? location = some .directory → other.find? location = some .directory

theorem SameDirectories.keeps (same : tree.SameDirectories other) : tree.KeepsDirectories other :=
  fun location => (same location).mp

/-- Names that lead somewhere go on leading there. -/
theorem KeepsDirectories.follow (keeps : tree.KeepsDirectories other) {names : List String}
    (followed : tree.follow location names = .ok target) :
    other.follow location names = .ok target := by
  induction names generalizing location with
  | nil => exact followed
  | cons name rest ih =>
      rw [follow_cons_eq_ok_iff] at followed ⊢
      refine ⟨keeps location followed.1, ?_⟩
      by_cases place : name = "" ∨ name = "."
      · simp only [if_pos place] at followed ⊢
        exact ih followed.2
      · by_cases up : name = ".."
        · simp only [if_neg place, if_pos up] at followed ⊢
          exact ih followed.2
        · simp only [if_neg place, if_neg up] at followed ⊢
          exact ⟨followed.2.1, ih followed.2.2⟩

theorem KeepsDirectories.locate (keeps : tree.KeepsDirectories other)
    (located : tree.locate path = .ok location) : other.locate path = .ok location := by
  obtain ⟨accepted, nonempty, followed⟩ := locate_eq_ok_iff.mp located
  exact locate_eq_ok_iff.mpr ⟨accepted, nonempty, keeps.follow followed⟩

/-! ## Places on a path -/

/-- Whether a path passes through a location: its parts up to some point lead there. -/
def Passes (tree : FileTree) (path : String) (location : Location) : Prop :=
  ∃ front, front <+: pathParts path ∧ tree.follow [] front = .ok location

theorem Passes.mono (keeps : tree.KeepsDirectories other) (passes : tree.Passes path location) :
    other.Passes path location := by
  obtain ⟨front, leading, followed⟩ := passes
  exact ⟨front, leading, keeps.follow followed⟩

/-- Names that lead to a directory pass through directories. -/
theorem exists_directory_of_prefix {front names : List String} (leading : front <+: names)
    (followed : tree.follow location names = .ok target)
    (stands : tree.find? target = some .directory) :
    ∃ middle, tree.follow location front = .ok middle ∧ tree.find? middle = some .directory := by
  obtain ⟨rest, rfl⟩ := leading
  rw [follow_append, Outcome.bind_eq_ok_iff] at followed
  obtain ⟨middle, reached, behind⟩ := followed
  refine ⟨middle, reached, ?_⟩
  cases rest with
  | nil =>
      cases behind
      exact stands
  | cons name rest => exact (follow_cons_eq_ok_iff.mp behind).1

/-- Names are followed one by one. -/
theorem follow_cons_iff {name : String} {rest : List String} :
    tree.follow location (name :: rest) = .ok target ↔
      ∃ middle, tree.follow location [name] = .ok middle ∧
        tree.follow middle rest = .ok target := by
  rw [← List.singleton_append, follow_append, Outcome.bind_eq_ok_iff]

/-- Parts that stay in place can be put back into a path. -/
theorem follow_of_filter {names front : List String}
    (leading : front <+: names.filter fun name => !name.isEmpty && name != ".")
    (followed : tree.follow location front = .ok target) :
    ∃ whole, whole <+: names ∧ tree.follow location whole = .ok target := by
  induction names generalizing location front with
  | nil =>
      rw [List.filter_nil, List.prefix_nil] at leading
      exact ⟨[], List.nil_prefix, leading ▸ followed⟩
  | cons name rest ih =>
      rw [List.filter_cons] at leading
      cases front with
      | nil => exact ⟨[], List.nil_prefix, followed⟩
      | cons first front =>
          split at leading
          · obtain ⟨rfl, behind⟩ := List.cons_prefix_cons.mp leading
            obtain ⟨middle, one, others⟩ := follow_cons_iff.mp followed
            obtain ⟨whole, begins, reached⟩ := ih behind others
            exact ⟨first :: whole, List.cons_prefix_cons.mpr ⟨rfl, begins⟩,
              follow_cons_iff.mpr ⟨middle, one, reached⟩⟩
          · next blank =>
            -- What is put back in front is passed at the place that the first name starts from.
            have through := (follow_cons_eq_ok_iff.mp followed).1
            obtain ⟨whole, begins, reached⟩ := ih leading followed
            have stays : name = "" ∨ name = "." := by
              by_contra moves
              exact blank (by simpa using moves)
            refine ⟨name :: whole, List.cons_prefix_cons.mpr ⟨rfl, begins⟩, ?_⟩
            rw [follow_cons_eq_ok_iff, if_pos stays]
            exact ⟨through, reached⟩

/-- Where the first names of a path lead, the path passes. -/
theorem passes_of_names {front : List String} (leading : front <+: pathNames path)
    (followed : tree.follow [] front = .ok location) : tree.Passes path location := by
  unfold pathNames at leading
  split at leading
  · rw [List.prefix_nil.mp leading] at followed
    exact ⟨[], List.nil_prefix, followed⟩
  · next first rest parts =>
    unfold Passes
    rw [parts]
    by_cases empty : first = ""
    · rw [if_pos (by simp [empty]), List.nil_append] at leading
      obtain ⟨whole, begins, reached⟩ := follow_of_filter leading followed
      refine ⟨first :: whole, List.cons_prefix_cons.mpr ⟨rfl, begins⟩, ?_⟩
      rw [follow_cons_eq_ok_iff, if_pos (.inl empty)]
      exact ⟨find?_root, reached⟩
    · rw [if_neg (by simp [empty]), List.singleton_append] at leading
      cases front with
      | nil => exact ⟨[], List.nil_prefix, followed⟩
      | cons name front =>
          obtain ⟨rfl, behind⟩ := List.cons_prefix_cons.mp leading
          obtain ⟨middle, one, others⟩ := follow_cons_iff.mp followed
          obtain ⟨whole, begins, reached⟩ := follow_of_filter behind others
          exact ⟨name :: whole, List.cons_prefix_cons.mpr ⟨rfl, begins⟩,
            follow_cons_iff.mpr ⟨middle, one, reached⟩⟩

/-- A directory on the way to another one is where its path passes. -/
theorem passes_of_pathsAbove (above : path = directory ∨ path ∈ pathsAbove directory)
    (located : tree.locate (withoutTrailingSlashes path) = .ok location) :
    tree.Passes directory location := by
  obtain ⟨-, -, followed⟩ := locate_eq_ok_iff.mp located
  have shortened := pathParts_withoutTrailingSlashes path
  rcases above with rfl | member
  · exact ⟨_, shortened, followed⟩
  · unfold pathsAbove at member
    rw [List.mem_reverse, List.mem_map] at member
    obtain ⟨count, inside, rfl⟩ := member
    have some : (pathNames directory).dropLast.take (count + 1) ≠ [] := by
      rw [ne_eq, List.take_eq_nil_iff, not_or]
      refine ⟨Nat.succ_ne_zero count, ?_⟩
      rintro none
      simp [none] at inside
    have plain : ∀ name ∈ (pathNames directory).dropLast.take (count + 1), '/' ∉ name.toList :=
      fun name member => slash_not_mem_of_mem_pathParts
        (pathNames_subset (List.dropLast_subset _ (List.mem_of_mem_take member)))
    rw [pathParts_intercalate some plain] at shortened
    exact passes_of_names
      ((shortened.trans (List.take_prefix _ _)).trans (List.dropLast_prefix _)) followed

/-! ## What changes -/

/-- What becomes of a location when a directory is made, with everything missing on the
way to it, and files of some names are written in it. -/
inductive Touched (directory : String) (names : List String) (before after : FileTree)
    (location : Location) : Prop
  | kept (same : after.find? location = before.find? location)
  | made (missing : before.find? location = none)
      (stands : after.find? location = some .directory) (passed : after.Passes directory location)
  | written (content : Content) (free : before.find? location ≠ some .directory)
      (stands : after.find? location = some (.file content)) (name : String)
      (named : name ∈ names) (located : after.locate (joinPath directory name) = .ok location)

/-- Whether nothing else changes between two trees. -/
def TouchesOnly (directory : String) (names : List String) (before after : FileTree) : Prop :=
  ∀ location, Touched directory names before after location

namespace TouchesOnly

variable {names more : List String}

theorem refl (tree : FileTree) : TouchesOnly directory names tree tree :=
  fun _ => .kept rfl

theorem keepsDirectories (touches : TouchesOnly directory names tree other) :
    tree.KeepsDirectories other := by
  intro location stands
  cases touches location with
  | kept same => rw [same, stands]
  | made missing => cases missing.symm.trans stands
  | written _ free => exact absurd stands free

theorem mono (touches : TouchesOnly directory names tree other) (subset : names ⊆ more) :
    TouchesOnly directory more tree other := by
  intro location
  cases touches location with
  | kept same => exact .kept same
  | made missing stands passed => exact .made missing stands passed
  | written content free stands name named located =>
      exact .written content free stands name (subset named) located

/-- What two steps touch. A directory that was made stays, and so does where paths lead. -/
theorem trans (first : TouchesOnly directory names tree other)
    (second : TouchesOnly directory names other third) :
    TouchesOnly directory names tree third := by
  intro location
  have keeps := second.keepsDirectories
  cases second location with
  | kept same =>
      cases first location with
      | kept before => exact .kept (same.trans before)
      | made missing stands passed => exact .made missing (same.trans stands) (passed.mono keeps)
      | written content free stands name named located =>
          exact .written content free (same.trans stands) name named (keeps.locate located)
  | made missing stands passed =>
      cases first location with
      | kept before => exact .made (before.symm.trans missing) stands passed
      | made _ earlier => cases earlier.symm.trans missing
      | written _ _ earlier => cases earlier.symm.trans missing
  | written content free stands name named located =>
      cases first location with
      | kept before => exact .written content (before ▸ free) stands name named located
      | made _ earlier => exact absurd earlier free
      | written _ earlier => exact .written content earlier stands name named located

instance : Std.Refl (TouchesOnly directory names) := ⟨refl⟩

instance : IsTrans FileTree (TouchesOnly directory names) := ⟨fun _ _ _ => trans⟩

/-- A file that lies apart from those that are written is read as before. -/
theorem read (touches : TouchesOnly directory names tree other) {content : Content}
    (found : tree.read path = .ok content)
    (apart : ∀ name ∈ names, ∀ location, other.locate path = .ok location →
      other.locate (joinPath directory name) ≠ .ok location) :
    other.read path = .ok content := by
  obtain ⟨location, located, stands⟩ := read_eq_ok_iff.mp found
  have still := touches.keepsDirectories.locate located
  refine read_eq_ok_iff.mpr ⟨location, still, ?_⟩
  cases touches location with
  | kept same => rw [same, stands]
  | made missing => cases missing.symm.trans stands
  | written _ _ _ name named there => exact absurd there (apart name named location still)

/-- Where a directory stands already, making it changes nothing. -/
theorem find?_eq (touches : TouchesOnly directory [] tree other)
    (stands : tree.isDirectory directory = true) (location : Location) :
    other.find? location = tree.find? location := by
  obtain ⟨target, located, standing⟩ := isDirectory_iff.mp stands
  obtain ⟨-, -, followed⟩ := locate_eq_ok_iff.mp located
  cases touches location with
  | kept same => exact same
  | made missing _ passed =>
      obtain ⟨front, leading, reached⟩ := passed
      obtain ⟨middle, earlier, there⟩ := exists_directory_of_prefix leading followed standing
      cases reached.symm.trans (touches.keepsDirectories.follow earlier)
      cases missing.symm.trans there
  | written _ _ _ name named => exact absurd named List.not_mem_nil

end TouchesOnly

theorem hasPath_iff :
    tree.hasPath path = true ↔
      ∃ location node, tree.locate path = .ok location ∧ tree.find? location = some node := by
  unfold hasPath lookup?
  cases tree.locate path with
  | ok location => simp [Option.isSome_iff_exists]
  | error fault => simp

/-! ## Names of entries -/

/-- A name that is no step and holds no slash, however long it is. -/
structure IsEntry (name : String) : Prop where
  steps : name ≠ "" ∧ name ≠ "." ∧ name ≠ ".."
  plain : '/' ∉ name.toList

/-- An entry that a path leads to has a name that is short enough for a file. -/
theorem isFileName_of_locate {name : String} (entry : IsEntry name)
    (located : tree.locate (joinPath directory name) = .ok location) : IsFileName name := by
  obtain ⟨nonempty, place, up⟩ := entry.steps
  obtain ⟨-, -, followed⟩ := locate_eq_ok_iff.mp located
  rw [pathParts_joinPath entry.plain, follow_append, Outcome.bind_eq_ok_iff] at followed
  obtain ⟨base, -, last⟩ := followed
  rw [follow_cons_eq_ok_iff, if_neg (by simp [nonempty, place]), if_neg up] at last
  exact ⟨⟨nonempty, place, up, last.2.1⟩, entry.plain⟩

/-- Two entries of a directory lie apart. -/
theorem eq_of_locate_joinPath {first second : String} (one : IsEntry first)
    (another : IsEntry second) (located : tree.locate (joinPath directory first) = .ok location)
    (same : tree.locate (joinPath directory second) = .ok location) : first = second := by
  by_contra different
  exact locate_joinPath_ne (isFileName_of_locate one located) (isFileName_of_locate another same)
    different located same

/-! ## Steps -/

theorem touchesOnly_of_write {name : String} {names : List String} (named : name ∈ names)
    {content : Content} (written : tree.write (joinPath directory name) content = .ok other) :
    TouchesOnly directory names tree other := by
  have same := sameDirectories_of_write written
  obtain ⟨location, located, free, rfl⟩ := write_eq_ok_iff.mp written
  have below : location ≠ [] := by
    rintro rfl
    exact free find?_root
  intro place
  by_cases here : place = location
  · subst here
    exact .written content free (find?_put_self below _) name named (same.locate.mpr located)
  · exact .kept (find?_put_of_ne here _)

/-- Making one directory of a path changes one place that was missing. -/
theorem touchesOnly_of_makeDirectory (above : path = directory ∨ path ∈ pathsAbove directory)
    {names : List String} (makes : tree.makeDirectory path = .ok other) :
    TouchesOnly directory names tree other := by
  obtain ⟨⟨⟩, -, rest⟩ := Outcome.bind_eq_ok_iff.mp makes
  obtain ⟨location, located, rest⟩ := Outcome.bind_eq_ok_iff.mp rest
  split at rest
  · cases rest
  · next missing =>
    cases rest
    have below : location ≠ [] := by
      rintro rfl
      cases find?_root.symm.trans missing
    have keeps : tree.KeepsDirectories (tree.put location .directory) := by
      intro place stands
      rwa [find?_put_of_ne (by rintro rfl; cases missing.symm.trans stands)]
    intro place
    by_cases here : place = location
    · subst here
      exact .made missing (find?_put_self below _)
        (passes_of_pathsAbove above (keeps.locate located))
    · exact .kept (find?_put_of_ne here _)

theorem touchesOnly_of_settleDirectory (above : path = directory ∨ path ∈ pathsAbove directory)
    {names : List String} : TouchesOnly directory names tree (tree.settleDirectory path).1 := by
  unfold settleDirectory
  cases made : tree.makeDirectory path with
  | ok other => exact touchesOnly_of_makeDirectory above made
  | error fault => exact .refl tree

theorem touchesOnly_of_makeDirectories {paths names : List String}
    (above : ∀ path ∈ paths, path = directory ∨ path ∈ pathsAbove directory) :
    TouchesOnly directory names tree (tree.makeDirectories paths).1 := by
  induction paths with
  | nil => exact .refl tree
  | cons path paths ih =>
      obtain ⟨here, others⟩ := List.forall_mem_cons.mp above
      rw [makeDirectories]
      split
      · split
        · next middle made =>
          have first : TouchesOnly directory names tree middle := by
            have touches := ih others
            rwa [made] at touches
          exact first.trans (touchesOnly_of_settleDirectory here)
        · exact ih others
      · exact touchesOnly_of_settleDirectory here

/-- Making a directory touches no more than its path, also if it fails. -/
theorem touchesOnly_of_ensureDirectory {names : List String} :
    TouchesOnly directory names tree (tree.ensureDirectory directory).1 := by
  unfold ensureDirectory
  split
  · exact .refl tree
  · apply touchesOnly_of_makeDirectories
    intro path member
    exact List.mem_cons.mp member

/-- Making a directory that stands already brings no path into being. -/
theorem hasPath_of_ensureDirectory (stands : tree.isDirectory directory = true)
    (found : (tree.ensureDirectory directory).1.hasPath path = true) :
    tree.hasPath path = true := by
  have touches : TouchesOnly directory [] tree (tree.ensureDirectory directory).1 :=
    touchesOnly_of_ensureDirectory
  have same := touches.find?_eq stands
  have directories : (tree.ensureDirectory directory).1.SameDirectories tree :=
    fun location => by rw [same]
  obtain ⟨location, node, located, there⟩ := hasPath_iff.mp found
  exact hasPath_iff.mpr ⟨location, node, directories.locate.mp located, (same location) ▸ there⟩

end FileTree

end InvertibleNet
