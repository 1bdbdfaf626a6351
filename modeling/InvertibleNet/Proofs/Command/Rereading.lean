/-
# Configurations that are saved and resolved again

Writing a configuration out and reading it in changes nothing, whatever text or source it
came from and whichever of its two texts is kept. A checkpoint keeps the one with a line
for every part; a document may be either.
-/

import InvertibleNet.Proofs.Command.Initialise
import InvertibleNet.Proofs.Network.Rereading

namespace InvertibleNet

open Json InvertibleNet.Action

namespace Source

variable {source : Source} {before after start : Session} {config : NetworkConfig}

/-- The rate of whatever a source comes to is a number, so it has a text. -/
theorem documentText_of_resolve (resolves : source.resolve.Gives before config after) :
    ∃ literal, config.dropoutRate.documentText? = some literal := by
  have finite : config.dropoutRate.IsFinite :=
    holds_of_resolve Preset.isFinite_of_find NetworkConfig.isFinite_of_ofText resolves
  exact (Double.exists_documentText_iff _).mpr finite

/-- A configuration that was resolved is resolved again from a document with one of its
texts. -/
theorem resolve_written (resolves : source.resolve.Gives before config after)
    (back : config.dropoutRate.ReadsBack) {path text : String}
    (texts : (NetworkConfig.record.toValue config).IsText text)
    (stands : start.files.read path = .ok (.text text)) (found : NetworkConfig) (last : Session) :
    (configFile path).resolve.Gives start found last ↔ found = config ∧ last = start := by
  rw [resolve_configFile_gives_iff, stands]
  simp only [Except.ok.injEq, Content.text.injEq, exists_eq_left',
    NetworkConfig.ofText_written_eq_ok_iff (fitsWords_of_resolve resolves) back texts,
    documentText_of_resolve resolves, true_and]
  rw [@eq_comm _ last]

/-- A configuration that was resolved is resolved again from a checkpoint that holds it,
unless the path of the checkpoint is empty. -/
theorem resolve_saved (resolves : source.resolve.Gives before config after)
    (back : config.dropoutRate.ReadsBack) {directory : String}
    (stands : start.files.read (Checkpoint.mk directory).configPath =
      .ok (.text (NetworkConfig.record.toValue config).pretty))
    (found : NetworkConfig) (last : Session) :
    (checkpoint directory).resolve.Gives start found last ↔
      directory ≠ "" ∧ found = config ∧ last = start := by
  rw [resolve_checkpoint_gives_iff (fitsWords_of_resolve resolves) back stands, @eq_comm _ last]
  simp only [documentText_of_resolve resolves, true_and]

/-- Configurations survive their texts. Whatever text a configuration of a network or of a
block was read from, its two texts give it again in every field, if the text of its rate
does; channels that are null and channels that are absent are both none. And a configuration
that a source came to is what a document with either text of it comes to, and what a
checkpoint that it was saved in comes to; only the empty path is no checkpoint. -/
theorem configurations_reread :
    (∀ text config, NetworkConfig.record.ofText text = .ok config →
      config.dropoutRate.ReadsBack →
        NetworkConfig.record.ofText (NetworkConfig.record.toValue config).compact = .ok config ∧
        NetworkConfig.record.ofText (NetworkConfig.record.toValue config).pretty = .ok config) ∧
    (∀ text config, NetworkConfig.record.ofText text = .ok config →
      (∀ field place,
        NetworkConfig.record.Stands field place (Document.ofText text.toList).reading →
          field.name = "channels" → place = .null) → config.channels = none) ∧
    (∀ text config, BlockConfig.record.ofText text = .ok config →
      config.dropoutRate.ReadsBack →
        BlockConfig.record.ofText (BlockConfig.record.toValue config).compact = .ok config ∧
        BlockConfig.record.ofText (BlockConfig.record.toValue config).pretty = .ok config) ∧
    ∀ (source : Source) (before : Session) (config : NetworkConfig) (resolved : Session),
      source.resolve.Gives before config resolved → config.dropoutRate.ReadsBack →
        (∀ (start : Session) (path text : String) (files : FileTree),
          (NetworkConfig.record.toValue config).IsText text →
          start.files.write path (.text text) = .ok files →
          ∀ found last, (configFile path).resolve.Gives { start with files := files } found last ↔
            found = config ∧ last = { start with files := files }) ∧
        ∀ (start : Session) (directory : String) (after : Session),
          (((Checkpoint.mk directory).saveConfig config).Gives start ⟨⟩ after ∨
            ∃ network, ((Checkpoint.mk directory).save network config).Gives start ⟨⟩ after) →
          ∀ found last, (checkpoint directory).resolve.Gives after found last ↔
            directory ≠ "" ∧ found = config ∧ last = after := by
  refine ⟨fun text config read back => ?_, fun text config read unlisted => ?_,
    fun text config read back => ?_, fun source before config resolved resolves back => ⟨?_, ?_⟩⟩
  · exact ⟨NetworkConfig.reread read back (.inl rfl), NetworkConfig.reread read back (.inr rfl)⟩
  · exact NetworkConfig.channels_eq_none_of_ofText unlisted read
  · exact ⟨BlockConfig.reread read back (.inl rfl), BlockConfig.reread read back (.inr rfl)⟩
  · intro start path text files texts written
    exact resolve_written resolves back texts (FileTree.read_of_write written)
  · rintro start directory after (saved | ⟨network, saved⟩)
    · exact resolve_saved resolves back (Checkpoint.read_of_saveConfig saved).1
    · exact resolve_saved resolves back (Checkpoint.read_of_save saved).1

/-- A file tree with the text of the configuration and an empty directory. -/
def extremeTree : FileTree :=
  ⟨[(["saved"], .directory), (["given.json"], .file (.text NetworkConfig.extremeText))]⟩

theorem configurations_reread_extreme :
    NetworkConfig.record.ofText (NetworkConfig.record.toValue .extreme).compact = .ok .extreme ∧
      NetworkConfig.record.ofText (NetworkConfig.record.toValue .extreme).pretty = .ok .extreme ∧
      NetworkConfig.extreme.channels = none ∧
      BlockConfig.record.ofText (BlockConfig.record.toValue .extreme).compact = .ok .extreme ∧
      BlockConfig.record.ofText (BlockConfig.record.toValue .extreme).pretty = .ok .extreme ∧
      (configFile "given.json").resolve.Gives (.start extremeTree) .extreme (.start extremeTree) ∧
      (∃ copied last, extremeTree.write "copy.json"
          (.text (NetworkConfig.record.toValue .extreme).compact) = .ok copied ∧
        (configFile "copy.json").resolve.Gives (.start copied) .extreme last) ∧
      ∃ after last,
        ((Checkpoint.mk "saved").saveConfig .extreme).Gives (.start extremeTree) ⟨⟩ after ∧
          (checkpoint "saved").resolve.Gives after .extreme last := by
  have read := NetworkConfig.ofText_extremeText
  have resolves : (configFile "given.json").resolve.Gives (.start extremeTree) .extreme
      (.start extremeTree) :=
    resolve_configFile_gives_iff.mpr ⟨_, rfl, read, rfl⟩
  obtain ⟨networks, channels, blocks, sources⟩ := configurations_reread
  obtain ⟨compact, pretty⟩ := networks _ _ read NetworkConfig.readsBack_extreme
  obtain ⟨compactBlock, prettyBlock⟩ :=
    blocks _ _ BlockConfig.ofText_extremeText BlockConfig.readsBack_extreme
  obtain ⟨documents, checkpoints⟩ := sources _ _ _ _ resolves NetworkConfig.readsBack_extreme
  have unlisted := channels _ _ read fun _ _ =>
    NetworkConfig.unlisted_of_fifthIsNull NetworkConfig.fifthIsNull_extremeText
  refine ⟨compact, pretty, unlisted, compactBlock, prettyBlock, resolves, ?_, ?_⟩
  · obtain ⟨copied, written⟩ : ∃ copied, extremeTree.write "copy.json"
        (.text (NetworkConfig.record.toValue .extreme).compact) = .ok copied :=
      ⟨_, FileTree.write_eq_ok_iff.mpr ⟨["copy.json"], by decide, by decide, rfl⟩⟩
    exact ⟨copied, _, written,
      (documents (.start extremeTree) _ _ _ (.inl rfl) written .extreme _).mpr ⟨rfl, rfl⟩⟩
  · have located : (Session.start extremeTree).files.locate (Checkpoint.mk "saved").configPath =
        .ok ["saved", "irevnet_config.json"] := by decide
    obtain ⟨after, saved⟩ := Checkpoint.exists_saveConfig located (by decide) .extreme
    exact ⟨after, after, saved, (checkpoints _ "saved" after (.inl saved) .extreme after).mpr
      ⟨by decide, rfl, rfl⟩⟩

end Source

end InvertibleNet
