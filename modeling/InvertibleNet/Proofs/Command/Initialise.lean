/-
# Checkpoints that are made and then described

What a summary says is settled by the configuration that its source comes to. Making a
checkpoint writes that configuration out, and what is written is read back as itself. So
the checkpoint is described as the source was, whatever stood in its directory and
wherever the document of the source lay, as the source is not read again.
-/

import InvertibleNet.Proofs.Command.Frame
import InvertibleNet.Proofs.Command.Summary
import InvertibleNet.Proofs.Network.Words

namespace InvertibleNet

open InvertibleNet.Action

variable {source : Source} {before after : Session} {config : NetworkConfig}

/-- A document comes to the configuration that is read from its text. -/
theorem Source.resolve_configFile_gives_iff {path : String} :
    (Source.configFile path).resolve.Gives before config after ↔
      ∃ text, before.files.read path = .ok (.text text) ∧
        NetworkConfig.record.ofText text = .ok config ∧ before = after := by
  simp only [resolve, gives_bind_iff, gives_attempting_iff, gives_reading_iff,
    Checkpoint.parseConfig_gives_iff, FileTree.readText_eq_ok_iff]
  constructor
  · rintro ⟨text, _, ⟨reads, rfl⟩, parsed, rfl⟩
    exact ⟨text, reads, parsed, rfl⟩
  · rintro ⟨text, reads, parsed, rfl⟩
    exact ⟨text, before, ⟨reads, rfl⟩, parsed, rfl⟩

/-- What holds of every preset and of every document holds of whatever a source comes to. -/
theorem Source.holds_of_resolve {holds : NetworkConfig → Prop}
    (presets : ∀ {name preset}, Preset.find name = .ok preset → holds preset.config)
    (documents : ∀ {text config}, NetworkConfig.record.ofText text = .ok config → holds config)
    (resolves : source.resolve.Gives before config after) : holds config := by
  cases source with
  | preset name =>
      obtain ⟨preset, _, found, given⟩ := gives_bind_iff.mp resolves
      obtain ⟨rfl, -⟩ := gives_pure_iff.mp given
      exact presets (gives_compute_iff.mp found).1
  | configFile path =>
      obtain ⟨text, -, parsed, -⟩ := resolve_configFile_gives_iff.mp resolves
      exact documents parsed
  | checkpoint directory =>
      obtain ⟨checkpoint, _, -, loads⟩ := gives_bind_iff.mp resolves
      obtain ⟨text, -, parsed, -⟩ := Checkpoint.loadConfig_gives_iff.mp loads
      exact documents parsed

/-- Whatever a source comes to fits words. -/
theorem Source.fitsWords_of_resolve (resolves : source.resolve.Gives before config after) :
    config.FitsWords :=
  holds_of_resolve Preset.fitsWords_of_find NetworkConfig.fitsWords_of_ofText resolves

/-- A configuration whose document stands in a directory is what its checkpoint comes to,
unless the path of the directory is empty. -/
theorem Source.resolve_checkpoint_gives_iff {directory : String} (words : config.FitsWords)
    (back : config.dropoutRate.ReadsBack)
    (stands : before.files.read (Checkpoint.mk directory).configPath =
      .ok (.text (NetworkConfig.record.toValue config).pretty)) {found : NetworkConfig} :
    (Source.checkpoint directory).resolve.Gives before found after ↔
      directory ≠ "" ∧ (∃ literal, config.dropoutRate.documentText? = some literal) ∧
        found = config ∧ before = after := by
  simp only [resolve, gives_bind_iff, Checkpoint.openExisting_gives_iff,
    show before.files.isDirectory directory = true ↔ directory ≠ "" from
      Checkpoint.isDirectory_of_read stands]
  constructor
  · rintro ⟨checkpoint, _, ⟨nonempty, rfl, rfl⟩, loads⟩
    exact ⟨nonempty, (Checkpoint.loadConfig_of_read words back stands).mp loads⟩
  · rintro ⟨nonempty, loads⟩
    exact ⟨⟨directory⟩, before, ⟨nonempty, rfl, rfl⟩,
      (Checkpoint.loadConfig_of_read words back stands).mpr loads⟩

/-- What it takes to make a checkpoint. -/
theorem Source.initialise_gives_iff {directory : String} {count : Nat} :
    (source.initialise directory).Gives before count after ↔
      (∀ stored, source ≠ .checkpoint stored) ∧ ∃ config middle network built created,
        source.resolve.Gives before config middle ∧ config.construct.Gives middle network built ∧
          (Checkpoint.create directory).Gives { built with
            log := built.log ++ [⟨.info, .init,
              s!"Initialised {network.plan.specs.length} blocks"⟩] } ⟨directory⟩ created ∧
          ((Checkpoint.mk directory).save network config).Gives created ⟨⟩ after ∧
          network.parameterCount = count := by
  by_cases names : ∀ stored, source ≠ .checkpoint stored
  · rw [initialise_eq names]
    simp only [gives_bind_iff, gives_log_iff, gives_pure_iff]
    constructor
    · rintro ⟨config, middle, resolves, network, built, constructs, _, _, rfl, checkpoint, created,
        creates, _, _, saves, rfl, rfl⟩
      obtain rfl := Checkpoint.eq_of_create creates
      exact ⟨names, config, middle, network, built, created, resolves, constructs, creates, saves,
        rfl⟩
    · rintro ⟨-, config, middle, network, built, created, resolves, constructs, creates, saves, rfl⟩
      exact ⟨config, middle, resolves, network, built, constructs, ⟨⟩, _, rfl, ⟨directory⟩, created,
        creates, ⟨⟩, after, saves, rfl, rfl⟩
  · refine iff_of_false (fun initialises => names ?_) fun steps => names steps.1
    rintro stored rfl
    exact (gives_throw_iff.mp initialises).elim

/-- A checkpoint is made wherever its directory can be made and its two files can be written
in it. -/
theorem Source.exists_initialise {directory : String} {middle : Session} {made : FileTree}
    {config_place weights_place : Location} (names : ∀ stored, source ≠ .checkpoint stored)
    (resolves : source.resolve.Gives before config middle) (constructible : config.IsConstructible)
    (makes : middle.files.ensureDirectory directory = (made, none))
    (config_located : made.locate (Checkpoint.mk directory).configPath = .ok config_place)
    (config_free : made.find? config_place ≠ some .directory)
    (weights_located : made.locate (Checkpoint.mk directory).weightsPath = .ok weights_place)
    (weights_free : made.find? weights_place ≠ some .directory) :
    ∃ count after, (source.initialise directory).Gives before count after := by
  obtain ⟨built, constructs⟩ : ∃ built, config.construct.Gives middle
      (config.freshNetwork config.planned) built :=
    NetworkConfig.exists_construct_gives_iff.mpr ⟨constructible, rfl⟩
  have untouched : built.files = middle.files := by
    obtain ⟨_, -, -, -, rfl⟩ := NetworkConfig.construct_gives_iff.mp constructs
    rfl
  have creates (log : List LogLine) : (Checkpoint.create directory).Gives { built with log := log }
      ⟨directory⟩ { built with files := made, log := log } :=
    Checkpoint.create_gives_iff.mpr ⟨by rw [untouched, makes], rfl, by rw [untouched, makes]⟩
  have saves (log : List LogLine) : ∃ after,
      ((Checkpoint.mk directory).save (config.freshNetwork config.planned) config).Gives
        { built with files := made, log := log } ⟨⟩ after := by
    obtain ⟨middle, configures⟩ : ∃ middle, ((Checkpoint.mk directory).saveConfig config).Gives
        { built with files := made, log := log } ⟨⟩ middle :=
      Checkpoint.exists_saveConfig config_located config_free config
    exact Checkpoint.exists_save configures weights_located weights_free _
  obtain ⟨after, saved⟩ := saves _
  exact ⟨_, after, initialise_gives_iff.mpr
    ⟨names, config, middle, _, built, _, resolves, constructs, creates _, saved, rfl⟩⟩

/-- A checkpoint that was made is described as its source was, with as many values as
were counted when it was made. Only the empty path cannot be opened as a directory. -/
theorem Source.summarise_of_initialise {directory : String} {count : Nat}
    (initialises : (source.initialise directory).Gives before count after)
    (back : ∀ config reached, source.resolve.Gives before config reached →
      config.dropoutRate.ReadsBack) :
    ∃ summary, (∃ last, source.summarise.Gives before summary last) ∧
      summary.parameters = count ∧
        ∀ later : Session, later.files = after.files → ∀ found,
          (∃ last, (Source.checkpoint directory).summarise.Gives later found last) ↔
            directory ≠ "" ∧ found = summary := by
  obtain ⟨-, config, middle, network, built, created, resolves, constructs, -, saves, rfl⟩ :=
    initialise_gives_iff.mp initialises
  obtain ⟨constructible, rfl⟩ := NetworkConfig.exists_construct_gives_iff.mp ⟨built, constructs⟩
  refine ⟨config.summary, ?_, rfl, fun later same found => ?_⟩
  · exact exists_summarise_gives_iff.mpr ⟨config, middle, resolves, constructible, rfl⟩
  have words := fitsWords_of_resolve resolves
  have stands := (Checkpoint.read_of_save saves).1
  rw [← same] at stands
  have comes (found : NetworkConfig) :
      (∃ last, (Source.checkpoint directory).resolve.Gives later found last) ↔
        directory ≠ "" ∧ found = config := by
    simp only [resolve_checkpoint_gives_iff words (back config middle resolves) stands,
      Checkpoint.documentText_of_builds constructible.1, true_and, exists_and_left, exists_eq',
      and_true]
  rw [exists_summarise_gives_iff]
  constructor
  · rintro ⟨other, _, resolved, -, rfl⟩
    obtain ⟨nonempty, rfl⟩ := (comes other).mp ⟨_, resolved⟩
    exact ⟨nonempty, rfl⟩
  · rintro ⟨nonempty, rfl⟩
    obtain ⟨reached, resolved⟩ := (comes config).mpr ⟨nonempty, rfl⟩
    exact ⟨config, reached, resolved, constructible, rfl⟩

namespace Source

/-- A directory with a document of the small configuration in the place where a
checkpoint has its own. -/
def configuredDirectory : FileTree := ⟨[(["saved"], .directory),
  (["saved", "irevnet_config.json"],
    .file (.text (NetworkConfig.record.toValue NetworkConfig.small).pretty))]⟩

/-- That document as a source. -/
def configured : Source := .configFile "saved/irevnet_config.json"

theorem resolve_configured {reached : Session} :
    configured.resolve.Gives (.start configuredDirectory) config reached ↔
      config = .small ∧ reached = .start configuredDirectory := by
  have found : configuredDirectory.read "saved/irevnet_config.json" =
      .ok (.text (NetworkConfig.record.toValue NetworkConfig.small).pretty) := rfl
  have text : ∃ literal, NetworkConfig.small.dropoutRate.documentText? = some literal :=
    Checkpoint.documentText_of_builds NetworkConfig.builds_small
  rw [configured, resolve_configFile_gives_iff,
    show (Session.start configuredDirectory).files = configuredDirectory from rfl, found]
  simp only [Except.ok.injEq, Content.text.injEq, exists_eq_left',
    NetworkConfig.ofText_written_eq_ok_iff NetworkConfig.fitsWords_small Double.readsBack_zero
      (.inr rfl), text, true_and]
  rw [@eq_comm _ reached]

theorem isConstructible_small : NetworkConfig.small.IsConstructible :=
  ⟨NetworkConfig.builds_small, by decide⟩

/-- The document is overwritten by the one of the checkpoint that is made of it. -/
theorem summarise_of_initialise_small :
    ∃ count after summary, (configured.initialise "saved").Gives (.start configuredDirectory)
        count after ∧
      (∃ last, configured.summarise.Gives (.start configuredDirectory) summary last) ∧
      summary.parameters = count ∧
        ∃ last, (Source.checkpoint "saved").summarise.Gives (.start after.files) summary last := by
  obtain ⟨count, after, initialises⟩ : ∃ count after,
      (configured.initialise "saved").Gives (.start configuredDirectory) count after :=
    exists_initialise (by simp [configured]) (resolve_configured.mpr ⟨rfl, rfl⟩)
      isConstructible_small rfl rfl (by decide) rfl (by decide)
  obtain ⟨summary, described, counted, again⟩ :=
    summarise_of_initialise initialises fun config reached resolves => by
      rw [(resolve_configured.mp resolves).1]
      exact Double.readsBack_zero
  exact ⟨count, after, summary, initialises, described, counted,
    (again (.start after.files) rfl summary).mpr ⟨by decide, rfl⟩⟩

/-- With an empty path a checkpoint is made as well, but it cannot be described. -/
theorem summarise_refused_small :
    ∃ count after, (configured.initialise "").Gives (.start configuredDirectory) count after ∧
      (∃ last, configured.summarise.Gives (.start configuredDirectory)
        NetworkConfig.small.summary last) ∧
      ∀ summary last,
        ¬ (Source.checkpoint "").summarise.Gives (.start after.files) summary last := by
  obtain ⟨count, after, initialises⟩ : ∃ count after,
      (configured.initialise "").Gives (.start configuredDirectory) count after :=
    exists_initialise (by simp [configured]) (resolve_configured.mpr ⟨rfl, rfl⟩)
      isConstructible_small rfl rfl (by decide) rfl (by decide)
  refine ⟨count, after, initialises, ?_, fun summary last finished => ?_⟩
  · exact exists_summarise_gives_iff.mpr
      ⟨.small, _, resolve_configured.mpr ⟨rfl, rfl⟩, isConstructible_small, rfl⟩
  obtain ⟨config, _, resolves, -⟩ := exists_summarise_gives_iff.mp ⟨last, finished⟩
  obtain ⟨checkpoint, _, opens, -⟩ := gives_bind_iff.mp resolves
  have stands := (Checkpoint.openExisting_gives_iff.mp opens).1
  obtain ⟨_, located, -⟩ := FileTree.isDirectory_iff.mp stands
  exact (FileTree.locate_eq_ok_iff.mp located).2.1 rfl

end Source

end InvertibleNet
