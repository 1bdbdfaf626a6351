/-
# Reports that were written

A report reads back from its document as itself, in every field: any number of blocks, seeds and
counts up to the largest word, and every number of single precision that has a text. A number
without a text is written as nothing, and nothing is not read as a number; so a report with one
is refused, with the same fault wherever in the report the number stands.
-/

import InvertibleNet.Proofs.Decimal.Rereading
import InvertibleNet.Proofs.Json.Record
import InvertibleNet.Proofs.Storage.ReportLog

namespace InvertibleNet

open Json

/-- The text of a number in a document is a numeral. -/
theorem Single.isNumeral_documentText {x : Single} {literal : String}
    (text : x.documentText? = some literal) : IsNumeral literal.toList := by
  unfold documentText? at text
  split at text
  · next finite =>
    obtain ⟨negative, significand, exponent, datum⟩ := exists_datum finite
    cases text
    rw [datum]
    exact Layout.isNumeral_text _ _ _ _ _
  · cases text

namespace Json

theorem Value.isSound_single (x : Single) : (Value.single x).IsSound := by
  unfold Value.single
  cases text : x.documentText? with
  | none => trivial
  | some literal => exact Single.isNumeral_documentText text

/-- The fault of a place where a number should stand and nothing does. -/
def absentNumber : Fault := .invalidType .null .single

/-- A number reads back if it has a text. -/
theorem single_reading (x : Single) :
    (Value.single x).reading.single = if x.isFinite = true then .ok x else .error absentNumber := by
  by_cases finite : x.isFinite = true
  · have text : x.documentText? = some (Layout.documentSingle.text Binary.single x.datum) :=
      if_pos finite
    rw [if_pos finite, Value.single, text]
    exact x.readsBack _ text
  · rw [if_neg finite, Value.single, Single.documentText?, if_neg finite]
    rfl

end Json

/-! ## Entries -/

/-- Whether every count of a block specification fits a word. -/
structure BlockSpec.FitsWords (spec : BlockSpec) : Prop where
  index : spec.index < Count.limit
  inChannels : spec.inChannels < Count.limit
  outChannels : spec.outChannels < Count.limit
  stride : spec.stride < Count.limit

/-- Every field of a block specification writes a sound document. -/
theorem BlockSpec.isSound_written (spec : BlockSpec) :
    ∀ field ∈ record.fields, (field.write spec).IsSound := by
  simp only [record, List.forall_mem_cons]
  exact ⟨Value.isSound_count _, Value.isSound_count _, Value.isSound_count _,
    Value.isSound_count _, trivial, fun _ member => by cases member⟩

/-- A block specification is read back from its place. -/
theorem BlockSpec.ofReading_written {spec : BlockSpec} (words : spec.FitsWords) :
    record.ofReading (record.toValue spec).reading = .ok spec := by
  have first : (Value.boolean spec.isFirst).reading.bool = .ok spec.isFirst := rfl
  rw [Record.ofReading_written (by decide)]
  simp only [record, Field.rereads, List.foldlM_cons, List.foldlM_nil, count_reading words.index,
    count_reading words.inChannels, count_reading words.outChannels, count_reading words.stride,
    first, bind, Except.bind, pure, Except.pure]

/-- Every field of a measurement writes a sound document. -/
theorem BlockError.isSound_written (entry : BlockError) :
    ∀ field ∈ record.fields, (field.write entry).IsSound := by
  simp only [record, List.forall_mem_cons]
  exact ⟨Record.entriesSound_fields (by decide) entry.spec.isSound_written,
    Value.isSound_single _, fun _ member => by cases member⟩

/-- A measurement is read back from its place if its error is a number. -/
theorem BlockError.ofReading_written {entry : BlockError} (words : entry.spec.FitsWords) :
    record.ofReading (record.toValue entry).reading =
      if entry.maxAbsError.isFinite = true then .ok entry else .error absentNumber := by
  rw [Record.ofReading_written (by decide)]
  simp only [record, Field.rereads, List.foldlM_cons, List.foldlM_nil,
    BlockSpec.ofReading_written words, single_reading, bind, Except.bind, pure, Except.pure]
  cases entry.maxAbsError.isFinite <;> rfl

namespace Report

variable {report : Report} {text : String}

/-! ## Reports -/

/-- Whether the seed and every count of a report fit a word. -/
structure FitsWords (report : Report) : Prop where
  batchSize : report.batchSize < Count.limit
  seed : report.seed < Count.limit
  specs : ∀ entry ∈ report.blocks, entry.spec.FitsWords

/-- Whether everything that is measured in a report, and its tolerance, is a number. -/
structure IsFinite (report : Report) : Prop where
  tolerance : report.tolerance.isFinite = true
  errors : ∀ entry ∈ report.blocks, entry.maxAbsError.isFinite = true
  endToEnd : report.endToEnd.isFinite = true

instance (report : Report) : Decidable report.IsFinite :=
  decidable_of_iff (report.tolerance.isFinite = true ∧
      (∀ entry ∈ report.blocks, entry.maxAbsError.isFinite = true) ∧
      report.endToEnd.isFinite = true)
    ⟨fun ⟨tolerance, errors, endToEnd⟩ => ⟨tolerance, errors, endToEnd⟩,
      fun finite => ⟨finite.tolerance, finite.errors, finite.endToEnd⟩⟩

/-- Every field of a report writes a sound document. -/
theorem isSound_written (report : Report) :
    ∀ field ∈ record.fields, (field.write report).IsSound := by
  have blocks : ItemsSound (report.blocks.map BlockError.record.toValue) := by
    induction report.blocks with
    | nil => trivial
    | cons entry entries ih =>
        exact ⟨Record.entriesSound_fields (by decide) entry.isSound_written, ih⟩
  simp only [record, List.forall_mem_cons]
  exact ⟨Value.isSound_count _, Value.isSound_count _, Value.isSound_single _, blocks,
    Value.isSound_single _, fun _ member => by cases member⟩

/-- A report is read back from its texts if all its numbers are numbers, and refused otherwise. -/
theorem ofText_written (words : report.FitsWords) (texts : (record.toValue report).IsText text) :
    record.ofText text = if report.IsFinite then .ok report else .error absentNumber := by
  have blocks : (Value.list (report.blocks.map BlockError.record.toValue)).reading.sequence
      BlockError.record.ofReading = if ∀ entry ∈ report.blocks, entry.maxAbsError.isFinite = true
        then .ok report.blocks else .error absentNumber :=
    sequence_reading fun entry member => BlockError.ofReading_written (words.specs entry member)
  rw [Record.ofText_written (by decide) (by decide) report.isSound_written texts]
  simp only [record, Field.rereads, List.foldlM_cons, List.foldlM_nil,
    count_reading words.batchSize, word_reading .seed words.seed, single_reading, blocks, bind,
    Except.bind, pure, Except.pure]
  by_cases tolerance : report.tolerance.isFinite = true
  · by_cases errors : ∀ entry ∈ report.blocks, entry.maxAbsError.isFinite = true
    · by_cases endToEnd : report.endToEnd.isFinite = true
      · have finite : report.IsFinite := ⟨tolerance, errors, endToEnd⟩
        rw [if_pos tolerance, if_pos errors, if_pos endToEnd, if_pos finite]
      · have infinite : ¬ report.IsFinite := fun finite => endToEnd finite.endToEnd
        rw [if_pos tolerance, if_pos errors, if_neg endToEnd, if_neg infinite]
    · have infinite : ¬ report.IsFinite := fun finite => errors finite.errors
      rw [if_pos tolerance, if_neg errors, if_neg infinite]
  · have infinite : ¬ report.IsFinite := fun finite => tolerance finite.tolerance
    rw [if_neg tolerance, if_neg infinite]

end Report

/-! ## Documents of a log -/

namespace ReportLog

variable {log : ReportLog} {report : Report} {before after : Session} {done : Unit}

/-- The document that is written when a report is logged is read back as that report, in every
field and so with the same verdict and the same worst block, exactly if all its numbers are
finite. Otherwise it is refused. -/
theorem add_rereads (words : report.FitsWords) (adds : (log.add report).Gives before done after) :
    ∃ text, after.files.readText (log.documentPath report.seed) = .ok text ∧
      (Report.record.ofText text = .ok report ↔ report.IsFinite) ∧
      (¬ report.IsFinite → Report.record.ofText text = .error absentNumber) ∧
      ∀ found, Report.record.ofText text = .ok found →
        found = report ∧ found.passed = report.passed ∧ found.worst? = report.worst? := by
  have logged : lastOf [report] report.seed = some report := by simp [lastOf]
  have read := Report.ofText_written words (.inr rfl)
  refine ⟨_, (logs_of_add adds).documents report.seed report logged, ?_, ?_, ?_⟩
  · rw [read]
    by_cases finite : report.IsFinite <;> simp [finite]
  · intro infinite
    rw [read, if_neg infinite]
  · intro found reread
    rw [read] at reread
    split at reread
    · cases reread
      exact ⟨rfl, rfl, rfl⟩
    · cases reread

/-- A log that was opened where no file stands. -/
def opened : Session := ((openOrCreate "reports").run.run (.start .empty)).2

/-- A report of two blocks, of which the first has no finite error, as a diverging network gives
one. -/
def diverged : Report where
  batchSize := 2
  seed := 42
  tolerance := ⟨0x38d1b717⟩
  blocks := [⟨⟨0, 3, 4, 1, true⟩, .infinity false⟩, ⟨⟨1, 8, 4, 1, false⟩, ⟨363742205⟩⟩]
  endToEnd := .infinity false

/-- A report of two blocks with the largest seed and numbers of every size. -/
def converged : Report where
  batchSize := 2
  seed := Count.limit - 1
  tolerance := ⟨0x7f7fffff⟩
  blocks := [⟨⟨0, 3, 4, 1, true⟩, ⟨1⟩⟩, ⟨⟨1, 8, 4, 1, false⟩, ⟨363742205⟩⟩]
  endToEnd := ⟨0x80000000⟩

theorem fitsWords_of_blocks {report : Report} (blocks : report.blocks.map (·.spec) =
    [⟨0, 3, 4, 1, true⟩, ⟨1, 8, 4, 1, false⟩]) : ∀ entry ∈ report.blocks, entry.spec.FitsWords := by
  intro entry member
  have listed := List.mem_map_of_mem (f := (·.spec)) member
  rw [blocks, List.mem_cons, List.mem_singleton] at listed
  rcases listed with spec | spec <;> rw [spec] <;>
    exact ⟨by decide, by decide, by decide, by decide⟩

theorem fitsWords_diverged : diverged.FitsWords :=
  ⟨by decide, by decide, fitsWords_of_blocks rfl⟩

theorem fitsWords_converged : converged.FitsWords :=
  ⟨by decide, by decide, fitsWords_of_blocks rfl⟩

/-- The report with the largest seed is read back from its file. -/
theorem add_rereads_converged :
    ∃ after text, ((ReportLog.mk "reports").add converged).Gives opened ⟨⟩ after ∧
      after.files.readText "reports/probe_seed_18446744073709551615.json" = .ok text ∧
      Report.record.ofText text = .ok converged := by
  obtain ⟨⟨⟩, after, adds⟩ : ∃ done after,
      ((ReportLog.mk "reports").add converged).Gives opened done after :=
    Action.exists_gives (by decide +kernel)
  obtain ⟨text, found, rereads, -⟩ := add_rereads fitsWords_converged adds
  exact ⟨after, text, adds, found, rereads.mpr (by decide)⟩

/-- The report of the diverging network is written, without any not-a-number in it, and is refused
when it is read. -/
theorem add_refused_diverged :
    ∃ after text, ((ReportLog.mk "reports").add diverged).Gives opened ⟨⟩ after ∧
      after.files.readText "reports/probe_seed_42.json" = .ok text ∧
      (diverged.tolerance.isNaN = false ∧ diverged.endToEnd.isNaN = false ∧
        ∀ entry ∈ diverged.blocks, entry.maxAbsError.isNaN = false) ∧
      Report.record.ofText text = .error absentNumber := by
  obtain ⟨⟨⟩, after, adds⟩ : ∃ done after,
      ((ReportLog.mk "reports").add diverged).Gives opened done after :=
    Action.exists_gives (by decide +kernel)
  have found := (logs_of_add adds).documents 42 diverged rfl
  refine ⟨after, _, adds, found, by decide, ?_⟩
  rw [Report.ofText_written fitsWords_diverged (.inr rfl), if_neg (by decide)]

end ReportLog

end InvertibleNet
