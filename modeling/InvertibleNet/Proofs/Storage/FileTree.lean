/-
# Files that are written and read

A path that leads somewhere does so through directories only, and writing a file
neither makes nor removes a directory. So no write changes where any other path
leads, what was written is read back, and every other file is as it was.

All files of one directory lie side by side: whoever can write one of them has
followed the path of the directory to its end.
-/

import InvertibleNet.Proofs.Outcome
import InvertibleNet.Storage.FileTree

namespace InvertibleNet

namespace FileTree

variable {tree : FileTree}

/-! ## What stands at a location -/

theorem find?_root : tree.find? [] = some .directory := if_pos rfl

theorem find?_put_self {location : Location} (below : location ≠ []) (node : Node) :
    (tree.put location node).find? location = some node := by
  rw [find?, if_neg below, put, List.find?_cons_of_pos (by simp)]
  rfl

theorem find?_put_of_ne {location other : Location} (apart : other ≠ location) (node : Node) :
    (tree.put location node).find? other = tree.find? other := by
  unfold find? put
  split
  · rfl
  · rw [List.find?_cons_of_neg (by simp [Ne.symm apart]), List.find?_filter]
    congr 2
    funext entry
    by_cases here : entry.1 = other
    · simp [here, apart]
    · simp [here]

/-! ## Following names -/

/-- Whether two trees have their directories at the same locations. -/
def SameDirectories (tree other : FileTree) : Prop :=
  ∀ location, tree.find? location = some .directory ↔ other.find? location = some .directory

variable {other : FileTree}

theorem SameDirectories.trans {third : FileTree} (same : tree.SameDirectories other)
    (others : other.SameDirectories third) : tree.SameDirectories third :=
  fun location => (same location).trans (others location)

/-- Names that lead somewhere lead through a directory. -/
theorem follow_cons_eq_ok_iff {location target : Location} {name : String} {rest : List String} :
    tree.follow location (name :: rest) = .ok target ↔
      tree.find? location = some .directory ∧
        if name = "" ∨ name = "." then tree.follow location rest = .ok target
        else if name = ".." then tree.follow location.dropLast rest = .ok target
        else name.utf8ByteSize ≤ longestName ∧
          tree.follow (location ++ [name]) rest = .ok target := by
  rw [follow]
  split
  · simp [*]
  · simp [*]
  · rename_i here
    simp only [here, true_and]
    split
    · rfl
    · split
      · rfl
      · split
        · rename_i long
          simp [Nat.not_le.mpr long]
        · rename_i short
          simp [Nat.not_lt.mp short]

/-- Where names lead depends on the directories only. -/
theorem SameDirectories.follow (same : tree.SameDirectories other) {location target : Location}
    {names : List String} :
    tree.follow location names = .ok target ↔ other.follow location names = .ok target := by
  induction names generalizing location with
  | nil => rfl
  | cons name rest ih =>
      rw [follow_cons_eq_ok_iff, follow_cons_eq_ok_iff, same location, ih, ih, ih]

theorem follow_append (location : Location) (front back : List String) :
    tree.follow location (front ++ back) =
      tree.follow location front >>= fun middle => tree.follow middle back := by
  induction front generalizing location with
  | nil => rfl
  | cons name front ih =>
      rw [List.cons_append, FileTree.follow, FileTree.follow]
      cases tree.find? location with
      | none => rfl
      | some node =>
          cases node with
          | file content => rfl
          | directory =>
              simp only [ih]
              split
              · rfl
              · split
                · rfl
                · split <;> rfl

/-- A name that is no step in place and no step up, and is not too long. -/
def IsName (name : String) : Prop :=
  name ≠ "" ∧ name ≠ "." ∧ name ≠ ".." ∧ name.utf8ByteSize ≤ longestName

instance (name : String) : Decidable (IsName name) :=
  inferInstanceAs (Decidable (_ ∧ _ ∧ _ ∧ _))

/-- A name leads from a directory to a place right below it. -/
theorem follow_name {location target : Location} {name : String} (is_name : IsName name) :
    tree.follow location [name] = .ok target ↔
      tree.find? location = some .directory ∧ target = location ++ [name] := by
  obtain ⟨nonempty, place, up, short⟩ := is_name
  rw [follow_cons_eq_ok_iff, if_neg (by simp [nonempty, place]), if_neg up, FileTree.follow,
    Except.ok.injEq]
  simp only [short, true_and, eq_comm]

/-! ## Paths -/

theorem locate_eq_ok_iff {path : String} {location : Location} :
    tree.locate path = .ok location ↔
      checkPath path = .ok ⟨⟩ ∧ path ≠ "" ∧ tree.follow [] (pathParts path) = .ok location := by
  rw [locate]
  cases checkPath path with
  | error fault => simp [bind, Except.bind]
  | ok accepted =>
      by_cases nonempty : path = ""
      · simp [nonempty, bind, Except.bind, throw, throwThe, MonadExceptOf.throw]
      · simp [nonempty, bind, Except.bind]

theorem checkPath_eq_ok_iff {path : String} :
    checkPath path = .ok ⟨⟩ ↔
      (∀ c ∈ path.toList, c.toNat ≠ 0) ∧ path.utf8ByteSize ≤ longestPath := by
  unfold checkPath
  split
  · rename_i zero
    obtain ⟨c, member, zero⟩ := List.any_eq_true.mp zero
    exact iff_of_false (by simp) fun conditions => conditions.1 c member (by simpa using zero)
  · split
    · rename_i long
      simp [Nat.not_le.mpr long]
    · rename_i zeros short
      simpa [Nat.not_lt.mp short] using zeros

theorem SameDirectories.locate (same : tree.SameDirectories other) {path : String}
    {location : Location} : tree.locate path = .ok location ↔ other.locate path = .ok location := by
  rw [locate_eq_ok_iff, locate_eq_ok_iff, same.follow]

/-! ## Writing and reading -/

theorem write_eq_ok_iff {path : String} {content : Content} :
    tree.write path content = .ok other ↔
      ∃ location, tree.locate path = .ok location ∧ tree.find? location ≠ some .directory ∧
        other = tree.put location (.file content) := by
  rw [write, Outcome.bind_eq_ok_iff]
  apply exists_congr
  intro location
  apply and_congr_right
  intro _
  split
  · simp [*, throw, throwThe, MonadExceptOf.throw]
  · rename_i free
    simpa [pure, Except.pure, eq_comm] using fun _ => free

theorem read_eq_ok_iff {path : String} {content : Content} :
    tree.read path = .ok content ↔
      ∃ location, tree.locate path = .ok location ∧ tree.find? location = some (.file content) := by
  rw [read, Outcome.bind_eq_ok_iff]
  apply exists_congr
  intro location
  apply and_congr_right
  intro _
  split <;> simp [*, throw, throwThe, MonadExceptOf.throw, pure, Except.pure]

theorem readText_eq_ok_iff {path text : String} :
    tree.readText path = .ok text ↔ tree.read path = .ok (.text text) := by
  rw [readText, Outcome.bind_eq_ok_iff]
  apply Iff.intro
  · intro reads
    obtain ⟨content, found, rest⟩ := reads
    cases content with
    | text other =>
        cases rest
        exact found
    | weights weights => cases rest
    | foreign => cases rest
  · intro found
    exact ⟨_, found, rfl⟩

/-- A file in the place of none, or of another file, makes and removes no directory. -/
theorem sameDirectories_put {location : Location} (free : tree.find? location ≠ some .directory)
    (content : Content) : (tree.put location (.file content)).SameDirectories tree := by
  have below : location ≠ [] := by
    rintro rfl
    exact free find?_root
  intro place
  by_cases here : place = location
  · subst here
    rw [find?_put_self below]
    exact iff_of_false (by simp) free
  · rw [find?_put_of_ne here]

/-- A write leaves every directory where it is. -/
theorem sameDirectories_of_write {path : String} {content : Content}
    (written : tree.write path content = .ok other) : other.SameDirectories tree := by
  obtain ⟨location, -, free, rfl⟩ := write_eq_ok_iff.mp written
  exact sameDirectories_put free content

/-- What was written is read back. -/
theorem read_of_write {path : String} {content : Content}
    (written : tree.write path content = .ok other) : other.read path = .ok content := by
  have same := sameDirectories_of_write written
  obtain ⟨location, located, free, rfl⟩ := write_eq_ok_iff.mp written
  have below : location ≠ [] := by
    rintro rfl
    exact free find?_root
  exact read_eq_ok_iff.mpr ⟨location, same.locate.mpr located, find?_put_self below _⟩

/-- A file at another location is as it was. -/
theorem read_of_write_elsewhere {path elsewhere : String} {content found : Content}
    (written : tree.write path content = .ok other)
    (apart : ∀ location, tree.locate path = .ok location → tree.locate elsewhere ≠ .ok location) :
    other.read elsewhere = .ok found ↔ tree.read elsewhere = .ok found := by
  have same := sameDirectories_of_write written
  obtain ⟨location, located, -, rfl⟩ := write_eq_ok_iff.mp written
  rw [read_eq_ok_iff, read_eq_ok_iff]
  apply exists_congr
  intro place
  rw [same.locate]
  apply and_congr_right
  intro here
  rw [find?_put_of_ne]
  rintro rfl
  exact apart place located here

/-! ## The files of a directory -/

theorem isDirectory_iff {path : String} :
    tree.isDirectory path = true ↔
      ∃ location, tree.locate path = .ok location ∧ tree.find? location = some .directory := by
  unfold isDirectory lookup?
  cases tree.locate path with
  | error fault => simp
  | ok location => simp

/-- The parts of a path in front of a name below it. -/
def frontParts (directory : String) : List String :=
  if directory = "" then []
  else if directory.toList.getLast? = some '/' then (pathParts directory).dropLast
  else pathParts directory

theorem pathParts_append (front back : String) :
    pathParts (front ++ "/" ++ back) = pathParts front ++ pathParts back := by
  simp [pathParts, List.splitOn_append_cons_self]

theorem pathParts_name {name : String} (plain : '/' ∉ name.toList) : pathParts name = [name] := by
  simp [pathParts, List.splitOn_eq_singleton plain]

/-- A path below another one continues it. -/
theorem exists_joinPath (directory name : String) :
    ∃ gap, joinPath directory name = directory ++ (gap ++ name) := by
  unfold joinPath
  split
  · rename_i none
    obtain rfl : directory = "" := by simpa using none
    exact ⟨"", by simp⟩
  · split
    · exact ⟨"", by simp⟩
    · exact ⟨"/", by rw [String.append_assoc]⟩

/-- The front of a path that may lead somewhere may do so as well. -/
theorem checkPath_of_append {front back : String} (accepted : checkPath (front ++ back) = .ok ⟨⟩) :
    checkPath front = .ok ⟨⟩ := by
  obtain ⟨characters, short⟩ := checkPath_eq_ok_iff.mp accepted
  refine checkPath_eq_ok_iff.mpr ⟨fun c member => characters c (by simp [member]), ?_⟩
  rw [String.utf8ByteSize_append] at short
  omega

/-- A path with a slash at its end has one empty part more. -/
theorem exists_front {directory : String} (slash : directory.toList.getLast? = some '/') :
    ∃ front, directory = front ++ "/" ∧ pathParts directory = pathParts front ++ [""] := by
  obtain ⟨front, ends⟩ := List.getLast?_eq_some_iff.mp slash
  have whole : directory = String.ofList front ++ "/" := by
    rw [← String.toList_inj, ends]
    simp
  have parts := pathParts_append (String.ofList front) ""
  rw [String.append_empty] at parts
  exact ⟨String.ofList front, whole, whole ▸ parts⟩

theorem pathParts_joinPath {directory name : String} (plain : '/' ∉ name.toList) :
    pathParts (joinPath directory name) = frontParts directory ++ [name] := by
  unfold joinPath frontParts
  by_cases nonempty : directory = ""
  · simp [nonempty, pathParts_name plain]
  · by_cases slash : directory.toList.getLast? = some '/'
    · obtain ⟨front, rfl, whole⟩ := exists_front slash
      have parts := pathParts_append front name
      rw [pathParts_name plain] at parts
      rw [if_neg (by simp [nonempty]), if_pos slash, if_neg nonempty, if_pos slash, whole, parts,
        List.dropLast_concat]
    · have parts := pathParts_append directory name
      rw [pathParts_name plain] at parts
      rw [if_neg (by simp [nonempty]), if_neg slash, if_neg nonempty, if_neg slash, parts]

/-- A directory that is followed to its end is followed without the slash as well. -/
theorem follow_frontParts {directory : String} (nonempty : directory ≠ "") {base : Location}
    (followed : tree.follow [] (frontParts directory) = .ok base)
    (stands : tree.find? base = some .directory) :
    tree.follow [] (pathParts directory) = .ok base := by
  unfold frontParts at followed
  rw [if_neg nonempty] at followed
  split at followed
  · rename_i slash
    obtain ⟨front, -, whole⟩ := exists_front slash
    rw [whole, List.dropLast_concat] at followed
    rw [whole, follow_append, followed]
    exact follow_cons_eq_ok_iff.mpr ⟨stands, by simp [FileTree.follow]⟩
  · exact followed

/-- A name of a file that may stand in a directory. -/
structure IsFileName (name : String) : Prop where
  isName : IsName name
  plain : '/' ∉ name.toList

/-- A file of a directory lies right below the place that the directory leads to. -/
theorem locate_joinPath {directory name : String} (file : IsFileName name) {location : Location} :
    tree.locate (joinPath directory name) = .ok location ↔
      checkPath (joinPath directory name) = .ok ⟨⟩ ∧
        ∃ base, tree.follow [] (frontParts directory) = .ok base ∧
          tree.find? base = some .directory ∧ location = base ++ [name] := by
  have nonempty : joinPath directory name ≠ "" := by
    obtain ⟨gap, joined⟩ := exists_joinPath directory name
    rw [joined]
    intro none
    exact file.isName.1 (by simp_all)
  rw [locate_eq_ok_iff, pathParts_joinPath file.plain, follow_append, Outcome.bind_eq_ok_iff]
  simp only [follow_name file.isName, nonempty, ne_eq, not_false_eq_true, true_and]

/-- Two files of a directory lie apart. -/
theorem locate_joinPath_ne {directory first second : String} (one : IsFileName first)
    (another : IsFileName second) (different : first ≠ second) {location : Location}
    (located : tree.locate (joinPath directory first) = .ok location) :
    tree.locate (joinPath directory second) ≠ .ok location := by
  intro same
  obtain ⟨-, base, followed, -, rfl⟩ := (locate_joinPath one).mp located
  obtain ⟨-, other, again, -, place⟩ := (locate_joinPath another).mp same
  rw [followed] at again
  cases again
  exact different (List.singleton_inj.mp (List.append_cancel_left place))

/-- Whoever can follow a path to a file in a directory finds the directory there. -/
theorem isDirectory_of_locate {directory name : String} (file : IsFileName name)
    (nonempty : directory ≠ "") {location : Location}
    (located : tree.locate (joinPath directory name) = .ok location) :
    tree.isDirectory directory = true := by
  obtain ⟨accepted, base, followed, stands, -⟩ := (locate_joinPath file).mp located
  refine isDirectory_iff.mpr ⟨base, locate_eq_ok_iff.mpr ⟨?_, nonempty,
    follow_frontParts nonempty followed stands⟩, stands⟩
  obtain ⟨gap, joined⟩ := exists_joinPath directory name
  exact checkPath_of_append (joined ▸ accepted)

end FileTree

end InvertibleNet
