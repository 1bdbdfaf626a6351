/-
# What commands touch

Resolving a source, building a network and probing it only read. So whatever makes a
command fail before it has a network, or a report, leaves the files as they were. What
is written afterwards goes to one directory and to files in it that the command names,
and the table of a report log only grows, even where the rest of the command fails.
-/

import InvertibleNet.Command.Run
import InvertibleNet.Proofs.Storage.Checkpoint
import InvertibleNet.Proofs.Storage.ReportLog

namespace InvertibleNet

open InvertibleNet.Action

variable {before : Session}

/-! ## What only reads -/

theorem Checkpoint.keeps_parseConfig (path text : String) :
    (parseConfig path text).Keeps Eq before := by
  unfold parseConfig
  cases NetworkConfig.record.ofText text with
  | ok config => rfl
  | error cause => rfl

theorem Checkpoint.keeps_openExisting (directory : String) :
    (openExisting directory).Keeps Eq before := by
  refine keeps_bind keeps_get fun session _ _ => ?_
  by_cases stands : session.files.isDirectory directory = true
  · rw [if_pos stands]
    rfl
  · rw [if_neg stands]
    rfl

theorem Checkpoint.keeps_loadConfig (checkpoint : Checkpoint) :
    checkpoint.loadConfig.Keeps Eq before :=
  keeps_bind (keeps_attempting_iff.mpr (keeps_reading _))
    fun text _ _ => keeps_parseConfig _ text

theorem Source.keeps_resolve (source : Source) : source.resolve.Keeps Eq before := by
  cases source with
  | preset name => exact keeps_bind (keeps_compute _) fun preset _ _ => keeps_pure preset.config
  | configFile path =>
      exact keeps_bind (keeps_attempting_iff.mpr (keeps_reading _))
        fun text _ _ => Checkpoint.keeps_parseConfig path text
  | checkpoint directory =>
      exact keeps_bind (Checkpoint.keeps_openExisting directory)
        fun checkpoint _ _ => checkpoint.keeps_loadConfig

theorem NetworkConfig.keeps_construct (config : NetworkConfig) :
    config.construct.Keeps Eq before :=
  keeps_bind (keeps_compute _) fun _ _ _ =>
    keeps_bind (keeps_log _ _ _) fun _ _ _ =>
      keeps_bind (keeps_compute _) fun _ _ _ =>
        keeps_bind (keeps_compute _) fun _ _ _ => keeps_pure _

theorem Checkpoint.keeps_loadWeights (checkpoint : Checkpoint) :
    checkpoint.loadWeights.Keeps Eq before := by
  refine keeps_bind keeps_get fun session _ _ => ?_
  split
  · rfl
  · rfl

theorem Checkpoint.keeps_loadNetwork (checkpoint : Checkpoint) :
    checkpoint.loadNetwork.Keeps Eq before := by
  refine keeps_bind checkpoint.keeps_loadConfig fun config _ _ =>
    keeps_bind config.keeps_construct fun network _ _ =>
      keeps_bind checkpoint.keeps_loadWeights fun weights _ _ =>
        keeps_bind (keeps_log _ _ _) fun _ _ _ => ?_
  split
  · rfl
  · rfl

theorem Source.keeps_network (source : Source) : source.network.Keeps Eq before := by
  cases source with
  | preset name =>
      exact keeps_bind (keeps_resolve _) fun config _ _ => config.keeps_construct
  | configFile path =>
      exact keeps_bind (keeps_resolve _) fun config _ _ => config.keeps_construct
  | checkpoint directory =>
      exact keeps_bind (Checkpoint.keeps_openExisting directory)
        fun checkpoint _ _ => checkpoint.keeps_loadNetwork

theorem Source.keeps_summarise (source : Source) : source.summarise.Keeps Eq before :=
  keeps_bind source.keeps_resolve fun config _ _ =>
    keeps_bind (keeps_compute _) fun _ _ _ =>
      keeps_bind (keeps_compute _) fun _ _ _ =>
        keeps_bind config.keeps_construct fun _ _ _ =>
          keeps_bind (keeps_compute _) fun ⟨_, _⟩ _ _ =>
            keeps_bind (keeps_log _ _ _) fun _ _ _ => keeps_pure _

theorem keeps_printLines (lines : List String) : (printLines lines).Keeps Eq before := by
  induction lines generalizing before with
  | nil => rfl
  | cons line lines ih => exact keeps_bind (keeps_printLine line) fun _ _ _ => ih

/-! ## Checkpoints -/

namespace Checkpoint

/-- The files of a checkpoint. -/
def fileNames : List String := ["irevnet_config.json", "model.mpk.gz"]

variable {checkpoint : Checkpoint}

theorem keeps_create (directory : String) :
    (create directory).Keeps (FileTree.TouchesOnly directory fileNames) before :=
  keeps_bind
    (keeps_attempting_iff.mpr (keeps_ensureDirectory FileTree.touchesOnly_of_ensureDirectory))
    fun _ _ _ => keeps_of_eq (keeps_pure _)

theorem keeps_saveConfig (checkpoint : Checkpoint) (config : NetworkConfig) :
    (checkpoint.saveConfig config).Keeps
      (FileTree.TouchesOnly checkpoint.directory fileNames) before :=
  keeps_attempting_iff.mpr (keeps_changing fun _ written =>
    FileTree.touchesOnly_of_write List.mem_cons_self written)

theorem keeps_saveWeights (checkpoint : Checkpoint) (weights : Weights) :
    (checkpoint.saveWeights weights).Keeps
      (FileTree.TouchesOnly checkpoint.directory fileNames) before := by
  have found : (get : Action Session).Gives before before before := rfl
  rw [Keeps, saveWeights, found.leaves_bind]
  cases written : before.files.write checkpoint.weightsPath (.weights weights) with
  | ok files => exact FileTree.touchesOnly_of_write (by simp [fileNames]) written
  | error fault => exact .refl before.files

theorem keeps_save (checkpoint : Checkpoint) (network : Network) (config : NetworkConfig) :
    (checkpoint.save network config).Keeps
      (FileTree.TouchesOnly checkpoint.directory fileNames) before :=
  keeps_bind (checkpoint.keeps_saveConfig config) fun _ _ _ =>
    keeps_bind (checkpoint.keeps_saveWeights network.weights)
      fun _ _ _ => keeps_of_eq (keeps_log _ _ _)

end Checkpoint

/-! ## Report logs -/

namespace FileTree

/-- Whether a text at a path is still there, with nothing but more behind it. -/
def ExtendsText (path : String) (tree other : FileTree) : Prop :=
  ∀ text, tree.readText path = .ok text → ∃ more, other.readText path = .ok (text ++ more)

instance (path : String) : Std.Refl (ExtendsText path) :=
  ⟨fun _ text found => ⟨"", by rwa [String.append_empty]⟩⟩

instance (path : String) : IsTrans FileTree (ExtendsText path) := by
  refine ⟨fun tree middle other first second text found => ?_⟩
  obtain ⟨more, extended⟩ := first text found
  obtain ⟨rest, again⟩ := second _ extended
  exact ⟨more ++ rest, by rwa [← String.append_assoc]⟩

end FileTree

namespace ReportLog

variable {relation : FileTree → FileTree → Prop} [Std.Refl relation] [IsTrans FileTree relation]

/-- Opening a log makes its directory, and writes a header where nothing stands. -/
theorem keeps_openOrCreate {directory : String}
    (makes : ∀ files : FileTree, relation files (files.ensureDirectory directory).1)
    (starts : ∀ files written : FileTree,
      files.hasPath (ReportLog.mk directory).tablePath = false →
      files.write (ReportLog.mk directory).tablePath (.text tableHeader) = .ok written →
        relation files written) :
    (openOrCreate directory).Keeps relation before := by
  refine keeps_bind (keeps_attempting_iff.mpr (keeps_ensureDirectory (makes _)))
    fun _ middle _ => ?_
  have found : (get : Action Session).Gives middle middle middle := rfl
  rw [Keeps, found.leaves_bind]
  split
  · next absent =>
    exact keeps_bind (keeps_changing fun written => starts _ written (by simpa using absent))
      fun _ _ _ => keeps_of_eq (keeps_pure _)
  · exact keeps_of_eq (keeps_pure _)

/-- Adding a report writes its lines behind the table, and then its document. -/
theorem keeps_add {log : ReportLog} {report : Report}
    (extends_ : ∀ (files written : FileTree) (text : String),
      files.readText log.tablePath = .ok text →
      files.write log.tablePath (.text (text ++ report.tableLines)) = .ok written →
        relation files written)
    (documents : ∀ files written : FileTree,
      files.write (log.documentPath report.seed) (.text (Report.record.toValue report).pretty) =
        .ok written → relation files written) :
    (log.add report).Keeps relation before := by
  refine keeps_bind (keeps_attempting_iff.mpr ?_) fun _ _ _ =>
    keeps_attempting_iff.mpr (keeps_changing fun written => documents _ written)
  refine keeps_bind (keeps_of_eq (keeps_reading _)) fun text middle reads => ?_
  obtain ⟨found, rfl⟩ := gives_reading_iff.mp reads
  exact keeps_changing fun written => extends_ _ written text found

/-- What logging a report touches. -/
theorem touchesOnly_of_logging (directory : String) (report : Report) :
    (openOrCreate directory >>= (·.add report)).Keeps
      (FileTree.TouchesOnly directory (fileNames [report])) before := by
  refine keeps_bind (keeps_openOrCreate (fun _ => FileTree.touchesOnly_of_ensureDirectory)
    fun _ _ _ => FileTree.touchesOnly_of_write List.mem_cons_self) fun log middle opens => ?_
  obtain ⟨-, rfl, -⟩ := openOrCreate_gives_iff.mp opens
  exact keeps_add (fun _ _ _ _ => FileTree.touchesOnly_of_write List.mem_cons_self)
    fun _ _ => FileTree.touchesOnly_of_write (List.mem_cons_of_mem _ List.mem_cons_self)

/-- Logging a report takes nothing out of the table. -/
theorem extendsText_of_logging (directory : String) (report : Report) :
    (openOrCreate directory >>= (·.add report)).Keeps
      (FileTree.ExtendsText (ReportLog.mk directory).tablePath) before := by
  refine keeps_bind (keeps_openOrCreate ?_ ?_) fun log middle opens => ?_
  · intro files text found
    exact ⟨"", by rw [String.append_empty]; exact readText_ensureDirectory directory found⟩
  · intro files written absent _ text found
    rw [hasPath_of_readText found] at absent
    cases absent
  · obtain ⟨-, rfl, -⟩ := openOrCreate_gives_iff.mp opens
    refine keeps_add ?_ ?_
    · intro files written text found extended other again
      rw [found] at again
      cases again
      exact ⟨_, FileTree.readText_eq_ok_iff.mpr (FileTree.read_of_write extended)⟩
    · intro files written documented text found
      refine ⟨"", ?_⟩
      rw [String.append_empty, FileTree.readText_eq_ok_iff] at *
      refine (FileTree.read_of_write_elsewhere documented ?_).mpr found
      intro location located also
      exact table_ne_document report.seed
        (FileTree.eq_of_locate_joinPath (isEntry_document _) isEntry_table located also).symm

end ReportLog

/-! ## Commands -/

/-- Making a checkpoint of a source that names an architecture. -/
theorem Source.initialise_eq {source : Source} (names : ∀ stored, source ≠ .checkpoint stored)
    (directory : String) :
    source.initialise directory = (do
      let config ← source.resolve
      let network ← config.construct
      Action.log .info .init s!"Initialised {network.plan.specs.length} blocks"
      let checkpoint ← Checkpoint.create directory
      checkpoint.save network config
      return network.parameterCount) := by
  cases source with
  | preset name => rfl
  | configFile path => rfl
  | checkpoint stored => exact absurd rfl (names stored)

/-- Whether a source names an architecture that a network is built of. -/
def Source.Builds (source : Source) (before : Session) : Prop :=
  (∀ stored, source ≠ .checkpoint stored) ∧
    ∃ config middle network built, source.resolve.Gives before config middle ∧
      config.construct.Gives middle network built

/-- Whatever is kept by writing a checkpoint is kept by making one. -/
theorem Source.keeps_initialise {relation : FileTree → FileTree → Prop} [Std.Refl relation]
    [IsTrans FileTree relation] {source : Source} {directory : String}
    (writes : source.Builds before → ∀ session,
      (Checkpoint.create directory).Keeps relation session ∧
        ∀ network config, ((Checkpoint.mk directory).save network config).Keeps relation session) :
    (source.initialise directory).Keeps relation before := by
  by_cases names : ∀ stored, source ≠ .checkpoint stored
  · rw [initialise_eq names]
    refine keeps_bind (keeps_of_eq source.keeps_resolve) fun config middle resolves => ?_
    refine keeps_bind (keeps_of_eq config.keeps_construct) fun network built constructs => ?_
    have builds := writes ⟨names, config, middle, network, built, resolves, constructs⟩
    refine keeps_bind (keeps_of_eq (keeps_log _ _ _)) fun _ logged _ => ?_
    refine keeps_bind (builds logged).1 fun checkpoint created creates => ?_
    obtain rfl := Checkpoint.eq_of_create creates
    exact keeps_bind ((builds created).2 network config) fun _ _ _ => keeps_of_eq (keeps_pure _)
  · rw [not_forall] at names
    obtain ⟨stored, checkpoint⟩ := names
    rw [not_not.mp checkpoint]
    exact keeps_of_eq (keeps_throw _)

/-- A report holds the seed that its batch was drawn from. -/
theorem Network.seed_of_probe {network : Network} {batchSize seed : Nat} {tolerance : Single}
    {report : Report} (probed : network.probe batchSize seed tolerance = .ok report) :
    report.seed = seed := by
  unfold probe at probed
  obtain ⟨_, -, rest⟩ := Outcome.bind_eq_ok_iff.mp probed
  obtain ⟨_, -, rest⟩ := Outcome.bind_eq_ok_iff.mp rest
  obtain ⟨_, -, rest⟩ := Outcome.bind_eq_ok_iff.mp rest
  obtain ⟨_, -, rest⟩ := Outcome.bind_eq_ok_iff.mp rest
  obtain ⟨_, -, rest⟩ := Outcome.bind_eq_ok_iff.mp rest
  obtain ⟨_, -, made⟩ := Outcome.bind_eq_ok_iff.mp rest
  cases made
  rfl

/-- Whether a check comes to a report. -/
def CheckRequest.Finds (request : CheckRequest) (before : Session) (report : Report) : Prop :=
  request.batchSize ≠ 0 ∧
    ∃ network middle, request.source.network.Gives before network middle ∧
      network.isRunnable = true ∧
        network.probe request.batchSize request.seed request.tolerance = .ok report

theorem CheckRequest.Finds.seed_eq {request : CheckRequest} {report : Report}
    (finds : request.Finds before report) : report.seed = request.seed := by
  obtain ⟨-, network, _, -, -, probed⟩ := finds
  exact Network.seed_of_probe probed

/-- Whatever is kept by logging the report of a check is kept by the check. -/
theorem CheckRequest.keeps_run {relation : FileTree → FileTree → Prop} [Std.Refl relation]
    [IsTrans FileTree relation] {request : CheckRequest}
    (logs : ∀ report, request.Finds before report → ∀ directory,
      request.reportDirectory = some directory → ∀ session,
        (ReportLog.openOrCreate directory >>= (·.add report)).Keeps relation session) :
    request.run.Keeps relation before := by
  have fails {α : Type} (cause : Failure) (next : Unit → Action α) (session : Session) :
      (throw cause >>= next).Keeps relation session :=
    keeps_bind (keeps_of_eq (keeps_throw cause)) fun _ _ gives => (gives_throw_iff.mp gives).elim
  unfold run
  dsimp only
  by_cases empty : request.batchSize = 0
  · rw [if_pos empty]
    exact fails _ _ _
  rw [if_neg empty]
  refine keeps_bind (keeps_of_eq request.source.keeps_network) fun network middle stored => ?_
  by_cases runnable : network.isRunnable = true
  · rw [if_neg (by simp [runnable])]
    refine keeps_bind (keeps_of_eq (keeps_compute _)) fun report probed probes => ?_
    have finds : request.Finds before report :=
      ⟨empty, network, middle, stored, runnable, (gives_compute_iff.mp probes).1⟩
    refine keeps_bind (keeps_of_eq (keeps_log _ _ _)) fun _ logged _ => ?_
    have warns (session : Session) : (if (!report.passed) = true then
        log .warning .check (s!"Reconstruction error {report.endToEnd.messageText 3} " ++
          s!"exceeds tolerance {report.tolerance.messageText 1}") >>= fun _ => pure report
        else pure report : Action Report).Keeps relation session := by
      split
      · exact keeps_bind (keeps_of_eq (keeps_log _ _ _)) fun _ _ _ => keeps_of_eq (keeps_pure _)
      · exact keeps_of_eq (keeps_pure _)
    cases chosen : request.reportDirectory with
    | none => exact warns logged
    | some directory =>
        dsimp only
        rw [← bind_assoc]
        exact keeps_bind (logs report finds directory chosen logged) fun _ later _ => warns later
  · rw [if_pos (by simp [runnable])]
    exact fails _ _ _

/-- Printing touches nothing: a command leaves what its work leaves. -/
theorem Command.leaves_run (command : Command) (before : Session) :
    command.run.leaves before = match command with
      | .presets => before.files
      | .summary source => source.summarise.leaves before
      | .init source directory _ => (source.initialise directory).leaves before
      | .check request backend => request.run.leaves { before with
          log := before.log ++
            [⟨.info, .command, s!"Running reconstruction check on {backend.title}"⟩] } := by
  cases command with
  | presets => exact (keeps_printLines _).symm
  | summary source => exact leaves_bind_of_keeps fun summary _ => keeps_printLines summary.lines
  | init source directory backend => exact leaves_bind_of_keeps fun _ _ => keeps_printLine _
  | check request backend =>
      have logs : (Action.log .info .command
          s!"Running reconstruction check on {backend.title}").Gives before ⟨⟩ { before with
            log := before.log ++
              [⟨.info, .command, s!"Running reconstruction check on {backend.title}"⟩] } :=
        gives_log_iff.mpr rfl
      refine (logs.leaves_bind _).trans (leaves_bind_of_keeps fun report _ => ?_)
      refine keeps_bind (keeps_printLines _) fun _ _ _ => ?_
      split
      · exact keeps_bind (keeps_throw _) fun _ _ _ => keeps_printLine _
      · exact keeps_printLine _

end InvertibleNet
