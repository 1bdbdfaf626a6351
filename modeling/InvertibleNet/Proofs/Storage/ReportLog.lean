/-
# Report logs over whole runs

A log may be opened any number of times and reports may be added in any order. What
carries a whole run is that no step takes anything back: opening writes a header only
where nothing stands, and adding a report puts its lines behind the text that stands
there. So the table is what it was found as, or a header, with the lines of all
reports behind it, and the document of a seed is that of the last report with it.

The lines can be told apart and read back because no cell holds a comma or ends a line.
-/

import InvertibleNet.Proofs.Command.Session
import InvertibleNet.Proofs.Decimal.Layout
import InvertibleNet.Proofs.Storage.Directories
import InvertibleNet.Storage.ReportLog

namespace InvertibleNet

open InvertibleNet.Action

/-! ## Lines and cells -/

/-- The lines of a text. Behind the last line end stands one line more. -/
def linesOf (text : String) : List String := (text.toList.splitOn '\n').map String.ofList

/-- The cells of a line. -/
def cellsOf (line : String) : List String := (line.toList.splitOn ',').map String.ofList

/-- What a line of the table says. -/
structure TableRow where
  seed : Nat
  index : Nat
  inChannels : Nat
  outChannels : Nat
  stride : Nat
  isInjective : Bool
  error : String
  deriving DecidableEq, Repr

/-- A natural by its digits. -/
def natOfText? (text : String) : Option Nat :=
  if text.toList ≠ [] ∧ text.toList.all Decimal.isDigit then some (Decimal.digitsValue text.toList)
  else none

/-- A truth value by its name. -/
def boolOfText? (text : String) : Option Bool :=
  if text = "true" then some true else if text = "false" then some false else none

/-- Read a line of the table. It has to have seven cells. -/
def TableRow.ofLine? (line : String) : Option TableRow :=
  match cellsOf line with
  | [seed, index, inChannels, outChannels, stride, isInjective, error] => do
      return {
        seed := ← natOfText? seed
        index := ← natOfText? index
        inChannels := ← natOfText? inChannels
        outChannels := ← natOfText? outChannels
        stride := ← natOfText? stride
        isInjective := ← boolOfText? isInjective
        error := error }
  | _ => none

namespace Report

variable (report : Report)

/-- What the line of a block has to say. -/
def row (entry : BlockError) : TableRow where
  seed := report.seed
  index := entry.spec.index
  inChannels := entry.spec.inChannels
  outChannels := entry.spec.outChannels
  stride := entry.spec.stride
  isInjective := entry.spec.isInjective
  error := entry.maxAbsError.tableText

def cells (entry : BlockError) : List String :=
  [toString report.seed, toString entry.spec.index, toString entry.spec.inChannels,
    toString entry.spec.outChannels, toString entry.spec.stride, toString entry.spec.isInjective,
    entry.maxAbsError.tableText]

/-- The line of a block without its end. -/
def line (entry : BlockError) : String := ",".intercalate (report.cells entry)

theorem tableLine_eq (entry : BlockError) :
    report.tableLine entry = report.line entry ++ "\n" := by
  have plain (text : String) : toString text = text := rfl
  rw [← String.toList_inj]
  simp [tableLine, line, cells, plain]

end Report

/-- A character that neither ends a cell nor a line. -/
def IsCellChar (c : Char) : Prop := c ≠ ',' ∧ c ≠ '\n'

theorem isCellChar_of_isDigit {c : Char} (digit : Decimal.isDigit c = true) : IsCellChar c := by
  constructor
  · rintro rfl
    cases digit
  · rintro rfl
    cases digit

theorem isCellChar_of_mem_toString {value : Nat} {c : Char} (member : c ∈ (toString value).toList) :
    IsCellChar c := by
  rw [Nat.toString_eq_repr] at member
  exact isCellChar_of_isDigit ((Decimal.areDigits_toDigits value).2 c (by simpa using member))

theorem Json.IsUnsigned.isCellChar {text : List Char} (unsigned : IsUnsigned text) {c : Char}
    (member : c ∈ text) : IsCellChar c := by
  obtain ⟨whole, fraction, exponent, ⟨⟨-, digits⟩, -⟩, fractional, exponential, rfl⟩ :=
    unsigned.parts
  rcases List.mem_append.mp member with front | behind
  · rcases List.mem_append.mp front with front | middle
    · exact isCellChar_of_isDigit (digits c front)
    · rcases fractional with rfl | ⟨places, ⟨-, digits⟩, rfl⟩
      · cases middle
      · rcases List.mem_cons.mp middle with rfl | place
        · exact ⟨by decide, by decide⟩
        · exact isCellChar_of_isDigit (digits c place)
  · rcases exponential with rfl | ⟨sign, places, signs, ⟨-, digits⟩, rfl⟩
    · cases behind
    · rcases List.mem_cons.mp behind with rfl | rest
      · exact ⟨by decide, by decide⟩
      · rcases List.mem_append.mp rest with signed | place
        · rcases signs with rfl | rfl | rfl
          · cases signed
          · rw [List.mem_singleton.mp signed]
            exact ⟨by decide, by decide⟩
          · rw [List.mem_singleton.mp signed]
            exact ⟨by decide, by decide⟩
        · exact isCellChar_of_isDigit (digits c place)

theorem Json.IsNumeral.isCellChar {text : List Char} (numeral : IsNumeral text) {c : Char}
    (member : c ∈ text) : IsCellChar c := by
  rcases numeral with unsigned | ⟨unsigned, is_unsigned, rfl⟩
  · exact unsigned.isCellChar member
  · rcases List.mem_cons.mp member with rfl | rest
    · exact ⟨by decide, by decide⟩
    · exact is_unsigned.isCellChar rest

theorem Single.isCellChar_of_mem_tableText {x : Single} {c : Char}
    (member : c ∈ x.tableText.toList) : IsCellChar c := by
  unfold tableText at member
  cases datum : x.datum with
  | nan =>
      rw [datum] at member
      revert c
      show ∀ c ∈ "NaN".toList, c ≠ ',' ∧ c ≠ '\n'
      simp
  | infinite negative =>
      rw [datum] at member
      revert c
      show ∀ c ∈ ((if negative then "-" else "") ++ "inf").toList, c ≠ ',' ∧ c ≠ '\n'
      cases negative with
      | true => simp
      | false => simp
  | finite negative significand exponent =>
      rw [datum] at member
      exact (Layout.isNumeral_text _ _ _ _ _).isCellChar member

theorem Report.isCellChar_of_mem_cells {report : Report} {entry : BlockError} {cell : String}
    (inside : cell ∈ report.cells entry) {c : Char} (member : c ∈ cell.toList) : IsCellChar c := by
  simp only [cells, List.mem_cons, List.not_mem_nil, or_false] at inside
  rcases inside with rfl | rfl | rfl | rfl | rfl | rfl | rfl
  · exact isCellChar_of_mem_toString member
  · exact isCellChar_of_mem_toString member
  · exact isCellChar_of_mem_toString member
  · exact isCellChar_of_mem_toString member
  · exact isCellChar_of_mem_toString member
  · revert c
    cases entry.spec.isInjective with
    | true => show ∀ c ∈ "true".toList, c ≠ ',' ∧ c ≠ '\n'; simp
    | false => show ∀ c ∈ "false".toList, c ≠ ',' ∧ c ≠ '\n'; simp
  · exact Single.isCellChar_of_mem_tableText member

/-- The cells of a line are found again. -/
theorem Report.cellsOf_line (report : Report) (entry : BlockError) :
    cellsOf (report.line entry) = report.cells entry := by
  have plain : ∀ cell ∈ report.cells entry, ',' ∉ cell.toList := fun cell inside member =>
    (isCellChar_of_mem_cells inside member).1 rfl
  unfold cellsOf line
  rw [String.toList_intercalate, show ",".toList = [','] from rfl, List.splitOn_intercalate]
  · simp
  · simpa using plain
  · simp [cells]

theorem natOfText?_toString (value : Nat) : natOfText? (toString value) = some value := by
  have digits : (toString value).toList = Nat.toDigits 10 value := by
    rw [Nat.toString_eq_repr]
    simp
  obtain ⟨nonempty, all⟩ := Decimal.areDigits_toDigits value
  rw [natOfText?, digits, if_pos ⟨nonempty, List.all_eq_true.mpr all⟩,
    Decimal.digitsValue_toDigits]

theorem boolOfText?_toString (value : Bool) : boolOfText? (toString value) = some value := by
  cases value with
  | true => rfl
  | false => rfl

/-- A line is read back as what it has to say. -/
theorem Report.ofLine?_line (report : Report) (entry : BlockError) :
    TableRow.ofLine? (report.line entry) = some (report.row entry) := by
  unfold TableRow.ofLine?
  rw [Report.cellsOf_line, Report.cells]
  simp only [natOfText?_toString, boolOfText?_toString]
  rfl

theorem not_mem_intercalate {c : Char} {cells : List String} (apart : c ≠ ',')
    (plain : ∀ cell ∈ cells, c ∉ cell.toList) : c ∉ (",".intercalate cells).toList := by
  induction cells with
  | nil => simp
  | cons cell cells ih =>
      obtain ⟨here, others⟩ := List.forall_mem_cons.mp plain
      cases cells with
      | nil => simpa using here
      | cons next rest =>
          rw [String.intercalate_cons_cons, String.toList_append, String.toList_append,
            List.mem_append, List.mem_append, not_or, not_or]
          exact ⟨⟨here, by simpa using apart⟩, ih others⟩

/-- No line of a block ends early. -/
theorem Report.newline_not_mem_line (report : Report) (entry : BlockError) :
    '\n' ∉ (report.line entry).toList :=
  not_mem_intercalate (by decide) fun _ inside member =>
    (isCellChar_of_mem_cells inside member).2 rfl

/-! ## The lines of several reports -/

/-- The lines of some reports, in the order of the reports and of their blocks. -/
def loggedLines (reports : List Report) : List String :=
  reports.flatMap fun report => report.blocks.map report.line

/-- What those lines have to say. -/
def loggedRows (reports : List Report) : List TableRow :=
  reports.flatMap fun report => report.blocks.map report.row

/-- The header without its end. -/
def headerLine : String := "seed,block,in_channels,out_channels,stride,injective,max_abs_error"

/-- Lines that are ended one after the other are found again. -/
theorem linesOf_join {lines : List String} (plain : ∀ line ∈ lines, '\n' ∉ line.toList) :
    linesOf (String.join (lines.map (· ++ "\n"))) = lines ++ [""] := by
  induction lines with
  | nil => rfl
  | cons line lines ih =>
      obtain ⟨here, others⟩ := List.forall_mem_cons.mp plain
      have behind := ih others
      unfold linesOf at behind ⊢
      rw [List.map_cons, String.join_cons, String.toList_append, String.toList_append,
        show "\n".toList = ['\n'] from rfl, List.append_assoc, List.singleton_append,
        List.splitOn_append_cons_self_of_not_mem here, List.map_cons, behind, String.ofList_toList]
      rfl

theorem join_tableLines (reports : List Report) :
    String.join (reports.map (·.tableLines)) =
      String.join ((loggedLines reports).map (· ++ "\n")) := by
  induction reports with
  | nil => rfl
  | cons report reports ih =>
      have own :
          report.tableLines = String.join ((report.blocks.map report.line).map (· ++ "\n")) := by
        rw [Report.tableLines, List.map_map]
        exact congrArg String.join (List.map_congr_left fun entry _ => report.tableLine_eq entry)
      rw [List.map_cons, String.join_cons, ih, own, loggedLines, loggedLines, List.flatMap_cons,
        List.map_append, String.join_append]

/-- A table that starts with the header is read line by line: the header, the lines of
all reports, each with what it has to say, and nothing behind the last line end. -/
theorem linesOf_table (reports : List Report) :
    linesOf (tableHeader ++ String.join (reports.map (·.tableLines))) =
        headerLine :: loggedLines reports ++ [""] ∧
      (loggedLines reports).map TableRow.ofLine? = (loggedRows reports).map some := by
  have plain : ∀ line ∈ headerLine :: loggedLines reports, '\n' ∉ line.toList := by
    rw [List.forall_mem_cons]
    refine ⟨by decide, fun line member => ?_⟩
    obtain ⟨report, -, own⟩ := List.mem_flatMap.mp member
    obtain ⟨entry, -, rfl⟩ := List.mem_map.mp own
    exact report.newline_not_mem_line entry
  refine ⟨?_, ?_⟩
  · have header : tableHeader = headerLine ++ "\n" := by decide
    rw [join_tableLines, ← linesOf_join plain, List.map_cons, String.join_cons, header]
  · simp only [loggedLines, loggedRows, List.map_flatMap, List.map_map, Function.comp_def,
      Report.ofLine?_line]

/-! ## The files of a log -/

/-- The name of the document of a seed. -/
def documentName (seed : Nat) : String := s!"probe_seed_{seed}.json"

theorem isEntry_table : FileTree.IsEntry "reconstruction.csv" :=
  ⟨by decide, by decide⟩

theorem toList_documentName (seed : Nat) :
    (documentName seed).toList =
      "probe_seed_".toList ++ (toString seed).toList ++ ".json".toList := by
  rw [← String.toList_append, ← String.toList_append]
  rfl

theorem isEntry_document (seed : Nat) : FileTree.IsEntry (documentName seed) := by
  have letters := toList_documentName seed
  have short (text : String) (small : text.toList.length < 10) : documentName seed ≠ text := by
    rintro rfl
    rw [letters, List.length_append, List.length_append] at small
    have : "probe_seed_".toList.length = 11 := rfl
    omega
  refine ⟨⟨short _ (by decide), short _ (by decide), short _ (by decide)⟩, ?_⟩
  rw [letters, List.mem_append, List.mem_append, not_or, not_or]
  refine ⟨⟨by decide, fun digit => ?_⟩, by decide⟩
  rw [Nat.toString_eq_repr] at digit
  have := (Decimal.areDigits_toDigits seed).2 '/' (by simpa using digit)
  cases this

theorem documentName_injective {seed other : Nat} (same : documentName seed = documentName other) :
    seed = other := by
  have letters := congrArg String.toList same
  rw [toList_documentName, toList_documentName, List.append_cancel_right_eq,
    List.append_cancel_left_eq, String.toList_inj] at letters
  have read := natOfText?_toString seed
  rw [letters, natOfText?_toString] at read
  exact (Option.some.inj read).symm

theorem table_ne_document (seed : Nat) : "reconstruction.csv" ≠ documentName seed := by
  intro same
  have letters := congrArg (·.toList.head?) same
  simp [toList_documentName] at letters

namespace ReportLog

variable {directory : String} {log : ReportLog} {report : Report} {before after : Session}

/-! ## One call -/

theorem openOrCreate_gives_iff :
    (openOrCreate directory).Gives before log after ↔
      (before.files.ensureDirectory directory).2 = none ∧ log = ⟨directory⟩ ∧
        if (before.files.ensureDirectory directory).1.hasPath (ReportLog.mk directory).tablePath then
          after = { before with files := (before.files.ensureDirectory directory).1 }
        else
          ∃ files, (before.files.ensureDirectory directory).1.write
              (ReportLog.mk directory).tablePath (.text tableHeader) = .ok files ∧
            after = { before with files := files } := by
  unfold openOrCreate
  rw [gives_bind_iff]
  simp only [gives_attempting_iff, gives_ensureDirectory_iff, gives_get_bind_iff, Bool.not_eq_true',
    exists_const, and_assoc]
  constructor
  · rintro ⟨_, made, rfl, rest⟩
    refine ⟨made, ?_⟩
    split at rest
    · next absent =>
      rw [if_neg (by simpa using absent)]
      obtain ⟨_, _, changed, finished⟩ := gives_bind_iff.mp rest
      obtain ⟨rfl, rfl⟩ := gives_pure_iff.mp finished
      exact ⟨rfl, gives_changing_iff.mp changed⟩
    · next present =>
      rw [if_pos (by simpa using present)]
      obtain ⟨rfl, rfl⟩ := gives_pure_iff.mp rest
      exact ⟨rfl, rfl⟩
  · rintro ⟨made, rfl, rest⟩
    refine ⟨_, made, rfl, ?_⟩
    split at rest
    · next present =>
      rw [if_neg (by simpa using present), gives_pure_iff]
      exact ⟨rfl, rest.symm⟩
    · next absent =>
      rw [if_pos (by simpa using absent), gives_bind_iff]
      exact ⟨⟨⟩, after, gives_changing_iff.mpr rest, gives_pure_iff.mpr ⟨rfl, rfl⟩⟩

theorem add_gives_iff {done : Unit} :
    (log.add report).Gives before done after ↔
      ∃ text table files, before.files.readText log.tablePath = .ok text ∧
        before.files.write log.tablePath (.text (text ++ report.tableLines)) = .ok table ∧
        table.write (log.documentPath report.seed)
          (.text (Report.record.toValue report).pretty) = .ok files ∧
        after = { before with files := files } := by
  unfold add appendLines
  simp only [gives_bind_iff, gives_attempting_iff, gives_reading_iff, gives_changing_iff]
  constructor
  · rintro ⟨_, _, ⟨text, _, ⟨found, rfl⟩, table, extended, rfl⟩, files, written, rfl⟩
    exact ⟨text, table, files, found, extended, written, rfl⟩
  · rintro ⟨text, table, files, found, extended, written, rfl⟩
    exact ⟨⟨⟩, _, ⟨text, before, ⟨found, rfl⟩, table, extended, rfl⟩, files, written, rfl⟩

/-- The files of a log that some reports go to. -/
def fileNames (reports : List Report) : List String :=
  "reconstruction.csv" :: reports.map (documentName ·.seed)

/-- The last of some reports with a seed. -/
def lastOf (reports : List Report) (seed : Nat) : Option Report :=
  (reports.filter (·.seed = seed)).getLast?

theorem lastOf_append (first rest : List Report) (seed : Nat) :
    lastOf (first ++ rest) seed = (lastOf rest seed).or (lastOf first seed) := by
  rw [lastOf, List.filter_append, List.getLast?_append]
  rfl

/-- What calls that add some reports do to the files, where the table is a text. -/
structure Logs (log : ReportLog) (reports : List Report) (before after : FileTree) : Prop where
  touches : FileTree.TouchesOnly log.directory (fileNames reports) before after
  table : ∀ text, before.readText log.tablePath = .ok text →
    after.readText log.tablePath = .ok (text ++ String.join (reports.map (·.tableLines)))
  documents : ∀ seed report, lastOf reports seed = some report →
    after.readText (log.documentPath seed) = .ok (Report.record.toValue report).pretty

theorem isEntry_of_mem_fileNames {reports : List Report} {name : String}
    (named : name ∈ fileNames reports) : FileTree.IsEntry name := by
  rcases List.mem_cons.mp named with rfl | document
  · exact isEntry_table
  · obtain ⟨report, -, rfl⟩ := List.mem_map.mp document
    exact isEntry_document report.seed

/-- The document of a seed stays if no report with that seed is added. -/
theorem readText_document_of_touches {reports : List Report} {tree other : FileTree}
    (touches : FileTree.TouchesOnly log.directory (fileNames reports) tree other) {seed : Nat}
    (unlogged : lastOf reports seed = none) {text : String}
    (found : tree.readText (log.documentPath seed) = .ok text) :
    other.readText (log.documentPath seed) = .ok text := by
  rw [FileTree.readText_eq_ok_iff] at found ⊢
  refine touches.read found fun name named location located also => ?_
  have same := FileTree.eq_of_locate_joinPath (isEntry_document seed)
    (isEntry_of_mem_fileNames named) located also
  rcases List.mem_cons.mp named with rfl | document
  · exact table_ne_document seed same.symm
  · obtain ⟨report, member, rfl⟩ := List.mem_map.mp document
    rw [lastOf, List.getLast?_eq_none_iff, List.filter_eq_nil_iff] at unlogged
    exact unlogged report member (by simp [documentName_injective same])

namespace Logs

variable {first rest : List Report} {tree middle last : FileTree}

theorem refl (log : ReportLog) (tree : FileTree) : log.Logs [] tree tree where
  touches := .refl tree
  table text found := by simpa using found
  documents seed report logged := by cases logged

/-- Calls that follow each other: lines behind lines, and the later document of a seed. -/
theorem trans (here : log.Logs first tree middle) (there : log.Logs rest middle last) :
    log.Logs (first ++ rest) tree last where
  touches := by
    have front : fileNames first ⊆ fileNames (first ++ rest) := by
      rw [fileNames, fileNames, List.map_append]
      exact List.cons_subset_cons _ (List.subset_append_left _ _)
    have behind : fileNames rest ⊆ fileNames (first ++ rest) := by
      rw [fileNames, fileNames, List.map_append]
      exact List.cons_subset_cons _ (List.subset_append_right _ _)
    exact (here.touches.mono front).trans (there.touches.mono behind)
  table text found := by
    rw [there.table _ (here.table text found), List.map_append, String.join_append,
      String.append_assoc]
  documents seed report logged := by
    rw [lastOf_append, Option.or_eq_some_iff] at logged
    rcases logged with later | ⟨unlogged, earlier⟩
    · exact there.documents seed report later
    · exact readText_document_of_touches there.touches unlogged
        (here.documents seed report earlier)

end Logs

/-- A table that is found is found again once the directory is made. -/
theorem readText_ensureDirectory (directory : String) {tree : FileTree} {path text : String}
    (found : tree.readText path = .ok text) :
    (tree.ensureDirectory directory).1.readText path = .ok text := by
  have made : FileTree.TouchesOnly directory [] tree (tree.ensureDirectory directory).1 :=
    FileTree.touchesOnly_of_ensureDirectory
  rw [FileTree.readText_eq_ok_iff] at found ⊢
  exact made.read found fun _ named => absurd named List.not_mem_nil

theorem hasPath_of_readText {tree : FileTree} {path text : String}
    (found : tree.readText path = .ok text) : tree.hasPath path = true := by
  obtain ⟨location, located, stands⟩ :=
    FileTree.read_eq_ok_iff.mp (FileTree.readText_eq_ok_iff.mp found)
  simp [FileTree.hasPath, FileTree.lookup?, located, stands]

/-- Opening a log changes no table. -/
theorem logs_of_openOrCreate (opens : (openOrCreate directory).Gives before log after) :
    (ReportLog.mk directory).Logs [] before.files after.files := by
  obtain ⟨-, rfl, rest⟩ := openOrCreate_gives_iff.mp opens
  have made : FileTree.TouchesOnly directory (fileNames []) before.files
      (before.files.ensureDirectory directory).1 := FileTree.touchesOnly_of_ensureDirectory
  split at rest
  · subst rest
    exact ⟨made, fun text found => by simpa using readText_ensureDirectory directory found,
      fun seed report logged => by cases logged⟩
  · next absent =>
    obtain ⟨files, written, rfl⟩ := rest
    refine ⟨made.trans (FileTree.touchesOnly_of_write List.mem_cons_self written), ?_,
      fun seed report logged => by cases logged⟩
    intro text found
    exact absurd (hasPath_of_readText (readText_ensureDirectory directory found)) absent

/-- Where no table stands, opening a log makes one with a header. -/
theorem readText_of_openOrCreate (opens : (openOrCreate directory).Gives before log after)
    (absent : (before.files.ensureDirectory directory).1.hasPath
      (ReportLog.mk directory).tablePath = false) :
    after.files.readText (ReportLog.mk directory).tablePath = .ok tableHeader := by
  obtain ⟨-, -, rest⟩ := openOrCreate_gives_iff.mp opens
  rw [if_neg (by simp [absent])] at rest
  obtain ⟨files, written, rfl⟩ := rest
  exact FileTree.readText_eq_ok_iff.mpr (FileTree.read_of_write written)

/-- Adding a report puts its lines behind the table and replaces its document. -/
theorem logs_of_add {done : Unit} (adds : (log.add report).Gives before done after) :
    log.Logs [report] before.files after.files := by
  obtain ⟨text, table, files, found, extended, written, rfl⟩ := add_gives_iff.mp adds
  have named : documentName report.seed ∈ fileNames [report] := by simp [fileNames]
  refine ⟨(FileTree.touchesOnly_of_write List.mem_cons_self extended).trans
    (FileTree.touchesOnly_of_write named written), ?_, ?_⟩
  · intro other again
    rw [found] at again
    cases again
    rw [FileTree.readText_eq_ok_iff]
    refine (FileTree.read_of_write_elsewhere written ?_).mpr ?_
    · intro location located also
      exact table_ne_document report.seed
        (FileTree.eq_of_locate_joinPath (isEntry_document _) isEntry_table located also).symm
    · simpa using FileTree.read_of_write extended
  · intro seed other logged
    by_cases here : report.seed = seed
    · rw [lastOf, List.filter_cons_of_pos (by simp [here])] at logged
      cases logged
      rw [← here]
      exact FileTree.readText_eq_ok_iff.mpr (FileTree.read_of_write written)
    · rw [lastOf, List.filter_cons_of_neg (by simp [here])] at logged
      cases logged

end ReportLog

/-! ## Whole runs -/

/-- A call on the log of a directory. -/
inductive LogCall where
  | opening
  | adding (report : Report)
  deriving DecidableEq, Repr

namespace LogCall

variable {directory : String} {calls : List LogCall} {before after : Session}

def run (directory : String) : LogCall → Action Unit
  | .opening => do let _ ← ReportLog.openOrCreate directory
  | .adding report => (ReportLog.mk directory).add report

/-- Make calls one after the other. -/
def runAll (directory : String) (calls : List LogCall) : Action Unit :=
  calls.forM (run directory)

def report? : LogCall → Option Report
  | .opening => none
  | .adding report => some report

/-- The reports that calls add, in their order. -/
def reports (calls : List LogCall) : List Report := calls.filterMap report?

theorem runAll_cons_gives_iff {call : LogCall} {done : Unit} :
    (runAll directory (call :: calls)).Gives before done after ↔
      ∃ middle, (call.run directory).Gives before ⟨⟩ middle ∧
        (runAll directory calls).Gives middle done after := by
  show (call.run directory >>= fun _ => runAll directory calls).Gives before done after ↔ _
  rw [gives_bind_iff]
  constructor
  · rintro ⟨⟨⟩, middle, here, rest⟩
    exact ⟨middle, here, rest⟩
  · rintro ⟨middle, here, rest⟩
    exact ⟨⟨⟩, middle, here, rest⟩

/-- What one call does. -/
theorem logs_of_run {call : LogCall} (runs : (call.run directory).Gives before ⟨⟩ after) :
    (ReportLog.mk directory).Logs (reports [call]) before.files after.files := by
  cases call with
  | opening =>
      obtain ⟨log, middle, opens, finished⟩ := gives_bind_iff.mp runs
      obtain ⟨-, rfl⟩ := gives_pure_iff.mp finished
      exact ReportLog.logs_of_openOrCreate opens
  | adding report => exact ReportLog.logs_of_add runs

/-- What a run of calls does. -/
theorem logs_of_runAll (runs : (runAll directory calls).Gives before ⟨⟩ after) :
    (ReportLog.mk directory).Logs (reports calls) before.files after.files := by
  induction calls generalizing before with
  | nil =>
      obtain ⟨-, rfl⟩ := gives_pure_iff.mp runs
      exact .refl _ _
  | cons call calls ih =>
      obtain ⟨middle, here, rest⟩ := runAll_cons_gives_iff.mp runs
      have whole : reports (call :: calls) = reports [call] ++ reports calls := by
        rw [reports, reports, reports, ← List.filterMap_append, List.singleton_append]
      rw [whole]
      exact (logs_of_run here).trans (ih rest)

/-- What calls do once the directory is made. -/
theorem table_of_runAll (runs : (runAll directory calls).Gives before ⟨⟩ after)
    (some : calls ≠ []) :
    ((before.files.ensureDirectory directory).1.hasPath (ReportLog.mk directory).tablePath = false →
        after.files.readText (ReportLog.mk directory).tablePath =
          .ok (tableHeader ++ String.join ((reports calls).map (·.tableLines)))) ∧
      ∀ text, (before.files.ensureDirectory directory).1.readText
          (ReportLog.mk directory).tablePath = .ok text →
        after.files.readText (ReportLog.mk directory).tablePath =
          .ok (text ++ String.join ((reports calls).map (·.tableLines))) := by
  obtain ⟨call, rest, rfl⟩ := List.exists_cons_of_ne_nil some
  obtain ⟨middle, here, others⟩ := runAll_cons_gives_iff.mp runs
  cases call with
  | adding report =>
      -- The table is there already, or the first report could not be added.
      obtain ⟨text, _, _, found, -⟩ := ReportLog.add_gives_iff.mp here
      have again := ReportLog.readText_ensureDirectory directory found
      refine ⟨fun absent => ?_, fun other reads => ?_⟩
      · rw [ReportLog.hasPath_of_readText again] at absent
        cases absent
      · rw [again] at reads
        cases reads
        exact (logs_of_runAll runs).table text found
  | opening =>
      obtain ⟨log, _, opens, finished⟩ := gives_bind_iff.mp here
      obtain ⟨-, rfl⟩ := gives_pure_iff.mp finished
      have later := (logs_of_runAll others).table
      refine ⟨fun absent => later _ (ReportLog.readText_of_openOrCreate opens absent), ?_⟩
      intro text found
      obtain ⟨-, -, kept⟩ := ReportLog.openOrCreate_gives_iff.mp opens
      rw [if_pos (ReportLog.hasPath_of_readText found)] at kept
      exact later text (by rw [kept]; exact found)

/-- What a run of calls leaves behind, however many times the log is opened and in
whatever order. A table that was missing, in a directory that stands or in one that has
to be made, is the header, once, and one line for every block of every report; a table
that was there is kept in front of the lines. The lines are read back as what they have
to say, every seed has one document, that of the last report with it, and no other file
changes. -/
theorem log_of_runAll (runs : (runAll directory calls).Gives before ⟨⟩ after) :
    (calls ≠ [] → before.files.isDirectory directory = true ∧
          before.files.hasPath (ReportLog.mk directory).tablePath = false ∨
        (before.files.ensureDirectory directory).1.hasPath
          (ReportLog.mk directory).tablePath = false →
      ∃ text, after.files.readText (ReportLog.mk directory).tablePath = .ok text ∧
        linesOf text = headerLine :: loggedLines (reports calls) ++ [""] ∧
        headerLine ∉ loggedLines (reports calls)) ∧
    (∀ text, before.files.readText (ReportLog.mk directory).tablePath = .ok text ∨
        calls ≠ [] ∧ (before.files.ensureDirectory directory).1.readText
          (ReportLog.mk directory).tablePath = .ok text →
      after.files.readText (ReportLog.mk directory).tablePath =
        .ok (text ++ String.join ((loggedLines (reports calls)).map (· ++ "\n")))) ∧
    (loggedLines (reports calls)).map TableRow.ofLine? = (loggedRows (reports calls)).map some ∧
    (∀ report ∈ reports calls, ∃ last, ReportLog.lastOf (reports calls) report.seed = some last ∧
      after.files.readText ((ReportLog.mk directory).documentPath report.seed) =
        .ok (Report.record.toValue last).pretty) ∧
    (∀ seed other location,
      after.files.locate ((ReportLog.mk directory).documentPath seed) = .ok location →
      after.files.locate ((ReportLog.mk directory).documentPath other) = .ok location →
        seed = other) ∧
    FileTree.TouchesOnly directory (ReportLog.fileNames (reports calls)) before.files
      after.files := by
  have logs := logs_of_runAll runs
  obtain ⟨lines, rows⟩ := linesOf_table (reports calls)
  refine ⟨fun some missing => ?_, fun text found => ?_, rows, fun report member => ?_, ?_,
    logs.touches⟩
  · have absent : (before.files.ensureDirectory directory).1.hasPath
        (ReportLog.mk directory).tablePath = false := by
      rcases missing with ⟨stands, nothing⟩ | absent
      · rw [Bool.eq_false_iff] at nothing ⊢
        exact fun found => nothing (FileTree.hasPath_of_ensureDirectory stands found)
      · exact absent
    refine ⟨_, (table_of_runAll runs some).1 absent, lines, fun again => ?_⟩
    have read := List.mem_map_of_mem (f := TableRow.ofLine?) again
    rw [rows, List.mem_map] at read
    obtain ⟨row, -, same⟩ := read
    have unread : TableRow.ofLine? headerLine = none := by decide
    rw [unread] at same
    cases same
  · rw [← join_tableLines]
    rcases found with here | ⟨some, found⟩
    · exact logs.table text here
    · exact (table_of_runAll runs some).2 text found
  · cases last : ReportLog.lastOf (reports calls) report.seed with
    | some other => exact ⟨other, rfl, logs.documents _ _ last⟩
    | none =>
        rw [ReportLog.lastOf, List.getLast?_eq_none_iff, List.filter_eq_nil_iff] at last
        exact absurd (by simp) (last report member)
  · intro seed other location located also
    exact documentName_injective (FileTree.eq_of_locate_joinPath (isEntry_document seed)
      (isEntry_document other) located also)

/-- A report of one block. -/
def sample : Report where
  batchSize := 2
  seed := 42
  tolerance := .one
  blocks := [⟨⟨0, 3, 4, 1, true⟩, .zero⟩]
  endToEnd := .zero

/-- A report added twice to a log that is opened twice. -/
theorem log_of_runAll_sample :
    ∃ after text, (runAll "reports" [.opening, .adding sample, .opening, .adding sample]).Gives
        (.start .empty) ⟨⟩ after ∧
      after.files.readText "reports/reconstruction.csv" = .ok text ∧
      linesOf text = [headerLine, "42,0,3,4,1,true,0e0", "42,0,3,4,1,true,0e0", ""] := by
  obtain ⟨⟨⟩, after, runs⟩ : ∃ done after,
      (runAll "reports" [.opening, .adding sample, .opening, .adding sample]).Gives
        (.start .empty) done after := exists_gives (by decide +kernel)
  obtain ⟨text, found, lines, -⟩ := (log_of_runAll runs).1 (by simp) (.inr (by decide))
  exact ⟨after, text, runs, found, lines.trans (by decide)⟩

end LogCall

end InvertibleNet
