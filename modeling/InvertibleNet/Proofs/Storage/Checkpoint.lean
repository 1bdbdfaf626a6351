/-
# Checkpoints that are saved and loaded

A checkpoint that was saved gives back the network that went into it, whatever
stood in its directory before. The configuration and the weights are two files
that lie apart, so each is found as it was written.

Nothing ties the two files together. If a save breaks off between them, what is
loaded is a network of the new configuration with whatever weights lay there
before, and it is refused only if there are none or not as many.
-/

import InvertibleNet.Proofs.Command.Session
import InvertibleNet.Proofs.Command.Summary
import InvertibleNet.Proofs.Network.Document
import InvertibleNet.Proofs.Network.Domain
import InvertibleNet.Proofs.Storage.FileTree
import InvertibleNet.Storage.Checkpoint

namespace InvertibleNet

open InvertibleNet.Action

variable {before after : Session} {config : NetworkConfig} {network : Network}

namespace Checkpoint

variable {checkpoint : Checkpoint} {weights : Weights}

/-! ## The steps -/

theorem create_gives_iff {directory : String} :
    (create directory).Gives before checkpoint after ↔
      (before.files.ensureDirectory directory).2 = none ∧ ⟨directory⟩ = checkpoint ∧
        after = { before with files := (before.files.ensureDirectory directory).1 } := by
  unfold create
  simp only [gives_bind_iff, gives_attempting_iff, gives_ensureDirectory_iff, gives_pure_iff]
  constructor
  · rintro ⟨⟨⟩, _, ⟨made, rfl⟩, rfl, rfl⟩
    exact ⟨made, rfl, rfl⟩
  · rintro ⟨made, rfl, rfl⟩
    exact ⟨⟨⟩, _, ⟨made, rfl⟩, rfl, rfl⟩

theorem eq_of_create {directory : String}
    (created : (create directory).Gives before checkpoint after) : checkpoint = ⟨directory⟩ :=
  (create_gives_iff.mp created).2.1.symm

theorem openExisting_gives_iff {directory : String} :
    (openExisting directory).Gives before checkpoint after ↔
      before.files.isDirectory directory = true ∧ ⟨directory⟩ = checkpoint ∧ before = after := by
  unfold openExisting
  rw [gives_get_bind_iff]
  by_cases stands : before.files.isDirectory directory = true
  · rw [if_pos stands, gives_pure_iff]
    simp [stands]
  · rw [if_neg stands, gives_throw_iff]
    simp [stands]

theorem saveConfig_gives_iff {done : Unit} :
    (checkpoint.saveConfig config).Gives before done after ↔
      ∃ files, before.files.write checkpoint.configPath
          (.text (NetworkConfig.record.toValue config).pretty) = .ok files ∧
        after = { before with files := files } := by
  unfold saveConfig
  rw [gives_attempting_iff, gives_changing_iff]

theorem saveWeights_gives_iff {done : Unit} :
    (checkpoint.saveWeights weights).Gives before done after ↔
      ∃ files, before.files.write checkpoint.weightsPath (.weights weights) = .ok files ∧
        after = { before with files := files } := by
  unfold saveWeights
  rw [gives_get_bind_iff]
  cases before.files.write checkpoint.weightsPath (.weights weights) with
  | ok files => simp [gives_modify_iff]
  | error fault => simp [gives_throw_iff]

/-- What it takes to save a network. -/
theorem save_gives_iff {done : Unit} :
    (checkpoint.save network config).Gives before done after ↔
      ∃ middle files, (checkpoint.saveConfig config).Gives before ⟨⟩ middle ∧
        middle.files.write checkpoint.weightsPath (.weights network.weights) = .ok files ∧
        after = { middle with
          files := files
          log := middle.log ++
            [⟨.info, .checkpoint, s!"Saved checkpoint to '{checkpoint.directory}'"⟩] } := by
  unfold save
  simp only [gives_bind_iff, saveWeights_gives_iff, gives_log_iff]
  constructor
  · rintro ⟨_, middle, written, _, _, ⟨files, stored, rfl⟩, rfl⟩
    exact ⟨middle, files, written, stored, rfl⟩
  · rintro ⟨middle, files, written, stored, rfl⟩
    exact ⟨⟨⟩, middle, written, ⟨⟩, _, ⟨files, stored, rfl⟩, rfl⟩

theorem parseConfig_gives_iff {path text : String} :
    (parseConfig path text).Gives before config after ↔
      NetworkConfig.record.ofText text = .ok config ∧ before = after := by
  unfold parseConfig
  cases NetworkConfig.record.ofText text with
  | ok found =>
      rw [Except.ok.injEq]
      exact gives_pure_iff
  | error cause => simp [gives_throw_iff]

theorem loadConfig_gives_iff :
    checkpoint.loadConfig.Gives before config after ↔
      ∃ text, before.files.read checkpoint.configPath = .ok (.text text) ∧
        NetworkConfig.record.ofText text = .ok config ∧ before = after := by
  unfold loadConfig
  simp only [gives_bind_iff, gives_attempting_iff, gives_reading_iff, parseConfig_gives_iff,
    FileTree.readText_eq_ok_iff]
  constructor
  · rintro ⟨text, _, ⟨found, rfl⟩, parsed, rfl⟩
    exact ⟨text, found, parsed, rfl⟩
  · rintro ⟨text, found, parsed, rfl⟩
    exact ⟨text, before, ⟨found, rfl⟩, parsed, rfl⟩

theorem loadWeights_gives_iff :
    checkpoint.loadWeights.Gives before weights after ↔
      before.files.read checkpoint.weightsPath = .ok (.weights weights) ∧ before = after := by
  unfold loadWeights
  rw [gives_get_bind_iff]
  split
  · rename_i stored found
    rw [found, gives_pure_iff, Except.ok.injEq, Content.weights.injEq]
  · rename_i other
    rw [gives_throw_iff]
    exact iff_of_false id fun conditions => other weights conditions.1

/-- What it takes to load a network: the configuration builds, the weights are there
and they are as many as the blocks. -/
theorem loadNetwork_gives_iff :
    checkpoint.loadNetwork.Gives before network after ↔
      ∃ config plan weights, checkpoint.loadConfig.Gives before config before ∧
        config.Builds plan ∧ config.checkRoom plan = .ok () ∧
        before.files.read checkpoint.weightsPath = .ok (.weights weights) ∧
        weights.bottlenecks.length = plan.specs.length ∧ network = ⟨plan, weights⟩ ∧
        after = { before with
          log := before.log ++ [⟨.info, .network, plan.announcement⟩] ++
            [⟨.info, .checkpoint, s!"Loaded checkpoint from '{checkpoint.directory}'"⟩] } := by
  unfold loadNetwork
  simp only [gives_bind_iff, NetworkConfig.construct_gives_iff, loadWeights_gives_iff,
    gives_log_iff]
  constructor
  · rintro ⟨config, session, loaded, fresh, _, ⟨plan, builds, room, rfl, rfl⟩, weights, _,
      ⟨found, rfl⟩, _, _, rfl, rest⟩
    obtain rfl : before = session := (loadConfig_gives_iff.mp loaded).choose_spec.2.2
    split at rest
    · rename_i many
      obtain ⟨rfl, rfl⟩ := gives_pure_iff.mp rest
      exact ⟨config, plan, weights, loaded, builds, room, found, many, rfl, rfl⟩
    · exact (gives_throw_iff.mp rest).elim
  · rintro ⟨config, plan, weights, loaded, builds, room, found, many, rfl, rfl⟩
    refine ⟨config, before, loaded, _, _, ⟨plan, builds, room, rfl, rfl⟩, weights, _, ⟨found, rfl⟩,
      ⟨⟩, _, rfl, ?_⟩
    rw [if_pos (show weights.bottlenecks.length = (config.freshNetwork plan).plan.specs.length
      from many)]
    exact gives_pure_iff.mpr ⟨rfl, rfl⟩

/-! ## The two files -/

theorem isFileName_config : FileTree.IsFileName "irevnet_config.json" :=
  ⟨by decide, by decide⟩

theorem isFileName_weights : FileTree.IsFileName "model.mpk.gz" :=
  ⟨by decide, by decide⟩

/-- A configuration that was saved is read back and does not touch the weights. -/
theorem read_of_saveConfig (saved : (checkpoint.saveConfig config).Gives before ⟨⟩ after) :
    after.files.read checkpoint.configPath =
        .ok (.text (NetworkConfig.record.toValue config).pretty) ∧
      ∀ content, after.files.read checkpoint.weightsPath = .ok content ↔
        before.files.read checkpoint.weightsPath = .ok content := by
  obtain ⟨files, written, rfl⟩ := saveConfig_gives_iff.mp saved
  refine ⟨FileTree.read_of_write written, fun content => ?_⟩
  apply FileTree.read_of_write_elsewhere written
  intro location located
  exact FileTree.locate_joinPath_ne isFileName_config isFileName_weights (by decide) located

/-- Both files of a network that was saved are read back. -/
theorem read_of_save (saved : (checkpoint.save network config).Gives before ⟨⟩ after) :
    after.files.read checkpoint.configPath =
        .ok (.text (NetworkConfig.record.toValue config).pretty) ∧
      after.files.read checkpoint.weightsPath = .ok (.weights network.weights) := by
  obtain ⟨middle, files, configured, written, rfl⟩ := save_gives_iff.mp saved
  refine ⟨?_, FileTree.read_of_write written⟩
  refine (FileTree.read_of_write_elsewhere written ?_).mpr (read_of_saveConfig configured).1
  intro location located
  exact FileTree.locate_joinPath_ne isFileName_weights isFileName_config (by decide) located

/-- A directory with a configuration in its place can be opened, unless its path is empty. -/
theorem isDirectory_of_read {content : Content}
    (stands : before.files.read checkpoint.configPath = .ok content) :
    before.files.isDirectory checkpoint.directory = true ↔ checkpoint.directory ≠ "" := by
  constructor
  · intro opens
    obtain ⟨_, located, -⟩ := FileTree.isDirectory_iff.mp opens
    exact (FileTree.locate_eq_ok_iff.mp located).2.1
  · intro nonempty
    obtain ⟨_, found, -⟩ := FileTree.read_eq_ok_iff.mp stands
    exact FileTree.isDirectory_of_locate isFileName_config nonempty found

/-- After a save the directory can be opened, unless its path is empty. -/
theorem isDirectory_of_save (saved : (checkpoint.save network config).Gives before ⟨⟩ after) :
    after.files.isDirectory checkpoint.directory = true ↔ checkpoint.directory ≠ "" :=
  isDirectory_of_read (read_of_save saved).1

/-- The configuration of a document that was written is the one that was written. -/
theorem loadConfig_of_read (words : config.FitsWords) (back : config.dropoutRate.ReadsBack)
    (stands : before.files.read checkpoint.configPath =
      .ok (.text (NetworkConfig.record.toValue config).pretty)) {found : NetworkConfig} :
    checkpoint.loadConfig.Gives before found after ↔
      (∃ literal, config.dropoutRate.documentText? = some literal) ∧ found = config ∧
        before = after := by
  rw [loadConfig_gives_iff, stands]
  simp only [Except.ok.injEq, Content.text.injEq, exists_eq_left',
    NetworkConfig.ofText_written_eq_ok_iff words back (.inr rfl), and_assoc]

/-- The rate of a configuration that builds has a text. -/
theorem documentText_of_builds {plan : Plan} (builds : config.Builds plan) :
    ∃ literal, config.dropoutRate.documentText? = some literal :=
  ((Double.isFraction_iff _).mp (NetworkConfig.builds_iff.mp builds).1.2).documentText

/-- What is loaded behind a document that was written: a network of that
configuration with the weights that stand in the directory. -/
theorem loadNetwork_of_read (words : config.FitsWords) (back : config.dropoutRate.ReadsBack)
    (stands : before.files.read checkpoint.configPath =
      .ok (.text (NetworkConfig.record.toValue config).pretty)) :
    (∃ after, checkpoint.loadNetwork.Gives before network after) ↔
      config.Builds network.plan ∧ config.checkRoom network.plan = .ok () ∧
        before.files.read checkpoint.weightsPath = .ok (.weights network.weights) ∧
        network.weights.bottlenecks.length = network.plan.specs.length := by
  simp only [loadNetwork_gives_iff, loadConfig_of_read words back stands]
  constructor
  · rintro ⟨_, _, plan, weights, ⟨-, rfl, -⟩, builds, room, found, many, rfl, -⟩
    exact ⟨builds, room, found, many⟩
  · rintro ⟨builds, room, found, many⟩
    exact ⟨_, config, network.plan, network.weights, ⟨documentText_of_builds builds, rfl, trivial⟩,
      builds, room, found, many, rfl, rfl⟩

/-- Loading touches no file. -/
theorem files_of_loadNetwork (loaded : checkpoint.loadNetwork.Gives before network after) :
    after.files = before.files := by
  obtain ⟨_, _, _, -, -, -, -, -, -, rfl⟩ := loadNetwork_gives_iff.mp loaded
  rfl

/-! ## Checkpoints that are complete -/

/-- Where no directory stands, a configuration is saved. -/
theorem exists_saveConfig {place : Location}
    (located : before.files.locate checkpoint.configPath = .ok place)
    (free : before.files.find? place ≠ some .directory) (config : NetworkConfig) :
    ∃ after, (checkpoint.saveConfig config).Gives before ⟨⟩ after := by
  simp only [saveConfig_gives_iff, FileTree.write_eq_ok_iff]
  exact ⟨_, _, ⟨place, located, free, rfl⟩, rfl⟩

/-- Where no directory stands, weights are saved behind a configuration. -/
theorem exists_save {middle : Session} {place : Location}
    (saved : (checkpoint.saveConfig config).Gives before ⟨⟩ middle)
    (located : before.files.locate checkpoint.weightsPath = .ok place)
    (free : before.files.find? place ≠ some .directory) (network : Network) :
    ∃ after, (checkpoint.save network config).Gives before ⟨⟩ after := by
  obtain ⟨files, written, rfl⟩ := saveConfig_gives_iff.mp saved
  have same := FileTree.sameDirectories_of_write written
  have still_free : files.find? place ≠ some .directory := fun stands =>
    free ((same place).mp stands)
  simp only [save_gives_iff, FileTree.write_eq_ok_iff]
  exact ⟨_, _, _, saved, ⟨place, same.locate.mpr located, still_free, rfl⟩, rfl⟩

/-- A save makes and removes no directory. -/
theorem sameDirectories_of_save (saved : (checkpoint.save network config).Gives before ⟨⟩ after) :
    after.files.SameDirectories before.files := by
  obtain ⟨_, _, configured, weighed, rfl⟩ := save_gives_iff.mp saved
  obtain ⟨_, written, rfl⟩ := saveConfig_gives_iff.mp configured
  exact (FileTree.sameDirectories_of_write weighed).trans
    (FileTree.sameDirectories_of_write written)

variable {start built created : Session} {fresh : Network} {directory : String}

/-- A network that was saved is loaded again: the same configuration in every field
and the same network, whatever stood in the directory before. The directory can be
opened unless its path is empty. -/
theorem save_load (constructed : config.construct.Gives start fresh built)
    (many : weights.bottlenecks.length = fresh.plan.specs.length)
    (words : config.FitsWords) (back : config.dropoutRate.ReadsBack)
    (creates : (create directory).Gives before checkpoint created)
    (saves : (checkpoint.save { fresh with weights := weights } config).Gives created ⟨⟩ after) :
    (∀ opened last, (openExisting directory).Gives after opened last ↔
        directory ≠ "" ∧ opened = checkpoint ∧ last = after) ∧
      (∀ found last, checkpoint.loadConfig.Gives after found last ↔
        found = config ∧ last = after) ∧
      ∃ last, checkpoint.loadNetwork.Gives after { fresh with weights := weights } last ∧
        last.files = after.files := by
  obtain rfl := eq_of_create creates
  obtain ⟨plan, builds, room, rfl, -⟩ := NetworkConfig.construct_gives_iff.mp constructed
  obtain ⟨configured, weighed⟩ := read_of_save saves
  refine ⟨fun opened last => ?_, fun found last => ?_, ?_⟩
  · rw [openExisting_gives_iff, isDirectory_of_save saves, @eq_comm _ opened, @eq_comm _ last]
  · rw [loadConfig_of_read words back configured, @eq_comm _ last]
    simp only [documentText_of_builds builds, true_and]
  · obtain ⟨last, loaded⟩ :=
      (loadNetwork_of_read words back configured).mpr ⟨builds, room, weighed, many⟩
    exact ⟨last, loaded, files_of_loadNetwork loaded⟩

/-- A file tree that holds nothing but an empty directory. -/
def emptyDirectory : FileTree := ⟨[(["saved"], .directory)]⟩

theorem locate_config_emptyDirectory :
    emptyDirectory.locate (Checkpoint.mk "saved").configPath =
      .ok ["saved", "irevnet_config.json"] := by decide

theorem locate_weights_emptyDirectory :
    emptyDirectory.locate (Checkpoint.mk "saved").weightsPath =
      .ok ["saved", "model.mpk.gz"] := by decide

/-- The network of the small configuration, saved. -/
theorem exists_save_small :
    ∃ saved, (save ⟨"saved"⟩ NetworkConfig.smallNetwork .small).Gives (.start emptyDirectory) ⟨⟩
      saved := by
  obtain ⟨middle, configured⟩ : ∃ middle,
      (saveConfig ⟨"saved"⟩ .small).Gives (.start emptyDirectory) ⟨⟩ middle :=
    exists_saveConfig locate_config_emptyDirectory (by decide) .small
  exact exists_save configured locate_weights_emptyDirectory (by decide) _

theorem save_load_small :
    ∃ created saved, (create "saved").Gives (.start .empty) ⟨"saved"⟩ created ∧
      (save ⟨"saved"⟩ NetworkConfig.smallNetwork .small).Gives created ⟨⟩ saved ∧
      (openExisting "saved").Gives saved ⟨"saved"⟩ saved ∧
      (loadConfig ⟨"saved"⟩).Gives saved .small saved ∧
      ∃ last, (loadNetwork ⟨"saved"⟩).Gives saved NetworkConfig.smallNetwork last := by
  obtain ⟨saved, saves⟩ := exists_save_small
  have creates : (create "saved").Gives (.start .empty) ⟨"saved"⟩ (.start emptyDirectory) := rfl
  have constructed : ∃ built,
      NetworkConfig.small.construct.Gives (.start .empty) NetworkConfig.smallNetwork built :=
    ⟨_, NetworkConfig.construct_gives_iff.mpr
      ⟨_, NetworkConfig.builds_small, by decide, rfl, rfl⟩⟩
  obtain ⟨built, constructed⟩ := constructed
  obtain ⟨opens, configures, last, loads, -⟩ := save_load constructed
    NetworkConfig.fits_smallNetwork.bottlenecks.length_eq NetworkConfig.fitsWords_small
    Double.readsBack_zero creates saves
  exact ⟨_, saved, creates, saves, (opens _ _).mpr ⟨by decide, rfl, rfl⟩,
    (configures _ _).mpr ⟨rfl, rfl⟩, last, loads⟩

/-- With an empty path a network is saved as well, but the directory of that path
cannot be opened. -/
theorem open_refused_small :
    ∃ created saved, (create "").Gives (.start .empty) ⟨""⟩ created ∧
      (save ⟨""⟩ NetworkConfig.smallNetwork .small).Gives created ⟨⟩ saved ∧
      ∀ opened last, ¬ (openExisting "").Gives saved opened last := by
  have creates : (create "").Gives (.start .empty) ⟨""⟩ (.start .empty) := rfl
  have config_located : FileTree.empty.locate (Checkpoint.mk "").configPath =
      .ok ["irevnet_config.json"] := by decide
  have weights_located : FileTree.empty.locate (Checkpoint.mk "").weightsPath =
      .ok ["model.mpk.gz"] := by decide
  obtain ⟨middle, configured⟩ : ∃ middle,
      (saveConfig ⟨""⟩ .small).Gives (.start .empty) ⟨⟩ middle :=
    exists_saveConfig config_located (by decide) .small
  obtain ⟨saved, saves⟩ :=
    exists_save configured weights_located (by decide) NetworkConfig.smallNetwork
  refine ⟨_, saved, creates, saves, fun opened last opens => ?_⟩
  exact (isDirectory_of_save saves).mp (openExisting_gives_iff.mp opens).1 rfl

/-! ## Checkpoints that are half written -/

/-- If a save breaks off behind the configuration, what is loaded is a network of that
configuration with the weights that stood in the directory before. So nothing is
loaded if there were none, or not as many as the configuration has blocks. -/
theorem load_half_written (words : config.FitsWords) (back : config.dropoutRate.ReadsBack)
    (saves : (checkpoint.saveConfig config).Gives before ⟨⟩ after) :
    (∃ last, checkpoint.loadNetwork.Gives after network last) ↔
      config.Builds network.plan ∧ config.checkRoom network.plan = .ok () ∧
        before.files.read checkpoint.weightsPath = .ok (.weights network.weights) ∧
        network.weights.bottlenecks.length = network.plan.specs.length := by
  obtain ⟨configured, elsewhere⟩ := read_of_saveConfig saves
  rw [loadNetwork_of_read words back configured, elsewhere]

theorem load_half_written_small :
    ∃ stopped, (saveConfig ⟨"saved"⟩ .small).Gives (.start emptyDirectory) ⟨⟩ stopped ∧
      ∀ network last, ¬ (loadNetwork ⟨"saved"⟩).Gives stopped network last := by
  obtain ⟨stopped, saves⟩ : ∃ stopped,
      (saveConfig ⟨"saved"⟩ .small).Gives (.start emptyDirectory) ⟨⟩ stopped :=
    exists_saveConfig locate_config_emptyDirectory (by decide) .small
  refine ⟨stopped, saves, fun network last loads => ?_⟩
  obtain ⟨-, -, weighed, -⟩ := (load_half_written NetworkConfig.fitsWords_small
    Double.readsBack_zero saves).mp ⟨last, loads⟩
  obtain ⟨place, located, stands⟩ := FileTree.read_eq_ok_iff.mp weighed
  cases located.symm.trans locate_weights_emptyDirectory
  cases stands

/-- The small configuration with samples of twice the height and width. -/
def resized : NetworkConfig := { NetworkConfig.small with input := ⟨3, 4, 4⟩ }

theorem builds_resized : resized.Builds resized.planned := by
  have plannable : resized.Plannable := by
    refine ⟨by decide, ⟨by decide, by decide, by decide, by decide, ?_, ?_, by decide⟩, by decide,
      by decide⟩
    · exact ⟨2, rfl⟩
    · exact ⟨2, rfl⟩
  exact NetworkConfig.builds_iff.mpr ⟨⟨plannable, by decide⟩, rfl⟩

theorem fitsWords_resized : resized.FitsWords := by
  refine ⟨by decide, by decide, by decide, by decide, ?_, by decide, by decide⟩
  intro widths listed
  cases listed
  decide

/-- A save of one network over another one that breaks off behind the configuration
leaves a directory from which a network is loaded that was never saved. -/
theorem mixed_network_small :
    ∃ saved stopped last,
      (save ⟨"saved"⟩ NetworkConfig.smallNetwork .small).Gives (.start emptyDirectory) ⟨⟩ saved ∧
      (saveConfig ⟨"saved"⟩ resized).Gives saved ⟨⟩ stopped ∧
      (loadNetwork ⟨"saved"⟩).Gives stopped
        ⟨resized.planned, NetworkConfig.smallNetwork.weights⟩ last := by
  obtain ⟨saved, saves⟩ := exists_save_small
  have same := sameDirectories_of_save saves
  obtain ⟨stopped, stops⟩ := exists_saveConfig (same.locate.mpr locate_config_emptyDirectory)
    (fun stands => absurd ((same _).mp stands) (by decide)) resized
  obtain ⟨configured, elsewhere⟩ := read_of_saveConfig stops
  have many := NetworkConfig.fits_smallNetwork.bottlenecks.length_eq
  have loads : ∃ last, (loadNetwork ⟨"saved"⟩).Gives stopped
      ⟨resized.planned, NetworkConfig.smallNetwork.weights⟩ last :=
    (loadNetwork_of_read fitsWords_resized Double.readsBack_zero configured).mpr
      ⟨builds_resized, by decide, (elsewhere _).mpr (read_of_save saves).2, many⟩
  obtain ⟨last, loads⟩ := loads
  exact ⟨saved, stopped, last, saves, stops, loads⟩

end Checkpoint

end InvertibleNet
