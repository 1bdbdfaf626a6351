/-
# Configurations that were written

A configuration of a network or of a block reads back from its document as itself,
in every field: channels that are listed and channels that are not, counts up to the
largest word, and a rate whose text reads back as that rate.
-/

import InvertibleNet.Network.Document
import InvertibleNet.Proofs.Binary.Finite
import InvertibleNet.Proofs.Decimal.Layout
import InvertibleNet.Proofs.Json.Record
import InvertibleNet.Proofs.Network.Consistency

namespace InvertibleNet

open Json

namespace Double

/-- Whether the text of a number in a document stands for that number again. -/
def ReadsBack (x : Double) : Prop :=
  ∀ literal, x.documentText? = some literal →
    (Number.ofText literal.toList).map (·.toDouble) = .ok x

instance (x : Double) : Decidable x.ReadsBack :=
  inferInstanceAs (Decidable (∀ literal ∈ x.documentText?,
    (Number.ofText literal.toList).map (·.toDouble) = .ok x))

/-- The text of zero reads back as zero. -/
theorem readsBack_zero : zero.ReadsBack := by decide +kernel

/-- The negative zero and the smallest number of all read back, but not every number: digits
are collected and scaled with a rounding each. -/
example : zero.neg.ReadsBack ∧ (Double.mk 1).ReadsBack ∧
    ¬ (Double.mk 0x3fce81f5a3bbdf79).ReadsBack := by decide +kernel

/-- Exactly the numbers have a text. -/
theorem exists_documentText_iff (x : Double) :
    (∃ literal, x.documentText? = some literal) ↔ x.IsFinite := by
  unfold documentText? IsFinite
  cases x.datum <;> simp [Binary.Datum.value?]

/-- A number from zero on and below one has a text. -/
theorem IsFraction.documentText {x : Double} (fraction : x.IsFraction) :
    ∃ literal, x.documentText? = some literal := by
  obtain ⟨value, finite, -⟩ := fraction
  exact (exists_documentText_iff x).mpr (Option.isSome_of_eq_some finite)

end Double

namespace Json

theorem Value.isSound_double (x : Double) : (Value.double x).IsSound := by
  unfold Value.double
  cases text : x.documentText? with
  | none => trivial
  | some literal => exact Double.isNumeral_documentText text

/-- A number whose text reads back is read back into whatever it is part of, if it has a
text at all. -/
theorem double_reading_map_eq_ok_iff {τ : Type} {x : Double} (back : x.ReadsBack)
    {put : Double → τ} {found : τ} :
    (Value.double x).reading.double.map put = .ok found ↔
      (∃ literal, x.documentText? = some literal) ∧ found = put x := by
  cases text : x.documentText? with
  | none =>
      simp [Value.double, text, Value.reading, Reading.double, Reading.refuse, Reading.found,
        Except.map]
  | some literal =>
      simp only [Value.double, text, Value.reading, Reading.double, back literal text,
        Option.some.injEq, exists_eq', true_and]
      show Except.ok (put x) = .ok found ↔ _
      rw [Except.ok.injEq, eq_comm]

end Json

/-- The extents of a sample are read back. -/
theorem SampleShape.ofReading_counts {shape : SampleShape}
    (channels : shape.channels < Count.limit) (height : shape.height < Count.limit)
    (width : shape.width < Count.limit) :
    SampleShape.ofReading (Value.counts shape.toList).reading = .ok shape := by
  have first := count_reading channels
  have second := count_reading height
  have third := count_reading width
  simp only [Value.counts, SampleShape.toList, List.map_cons, List.map_nil, Value.reading,
    itemReadings, ofReading, Reading.parts, first, second, third, bind, Except.bind, pure,
    Except.pure]

namespace NetworkConfig

/-- Whether every count of a configuration fits a word. -/
structure FitsWords (config : NetworkConfig) : Prop where
  blocks : ∀ depth ∈ config.blocks, depth < Count.limit
  strides : ∀ stride ∈ config.strides, stride < Count.limit
  classes : config.classes < Count.limit
  input : config.input.channels < Count.limit ∧ config.input.height < Count.limit ∧
    config.input.width < Count.limit
  channels : ∀ widths, config.channels = some widths → ∀ width ∈ widths, width < Count.limit
  initialBlock : config.initialBlock < Count.limit
  multiplier : config.multiplier < Count.limit

variable {config : NetworkConfig}

/-- Listed channels are read back as listed, and absent ones as absent. -/
theorem optionalCounts_reading {channels : Option (List Nat)}
    (fits : ∀ widths, channels = some widths → ∀ width ∈ widths, width < Count.limit) :
    ((channels.map .counts).getD .null : Value).reading.optionalCounts = .ok channels := by
  cases channels with
  | none => rfl
  | some widths =>
      have back := counts_reading (fits widths rfl)
      rw [Option.map_some, Option.getD_some]
      simp only [Value.counts, Value.reading] at back ⊢
      rw [Reading.optionalCounts, back]
      · rfl
      · rintro ⟨⟩

/-- Every field of a configuration writes a sound document. -/
theorem isSound_written (config : NetworkConfig) :
    ∀ field ∈ record.fields, (field.write config).IsSound := by
  have channels : ((config.channels.map .counts).getD .null : Value).IsSound := by
    cases config.channels with
    | none => trivial
    | some widths => exact Value.isSound_counts widths
  simp only [record, List.forall_mem_cons]
  exact ⟨Value.isSound_counts _, Value.isSound_counts _, Value.isSound_count _,
    Value.isSound_counts _, channels, Value.isSound_count _, Value.isSound_double _,
    Value.isSound_count _, fun _ member => by cases member⟩

/-- A configuration is read back from its texts, its rate as the text of the rate is. -/
theorem ofText_written {text : String} (words : config.FitsWords)
    (texts : (record.toValue config).IsText text) :
    record.ofText text = (Value.double config.dropoutRate).reading.double.map fun rate =>
      { config with dropoutRate := rate } := by
  rw [Record.ofText_written (by decide) (by decide) config.isSound_written texts]
  simp only [record, Field.rereads, List.foldlM_cons, List.foldlM_nil,
    counts_reading words.blocks, counts_reading words.strides, count_reading words.classes,
    SampleShape.ofReading_counts words.input.1 words.input.2.1 words.input.2.2,
    optionalCounts_reading words.channels, count_reading words.initialBlock,
    count_reading words.multiplier, bind, Except.bind, pure, Except.pure]
  cases (Value.double config.dropoutRate).reading.double <;> rfl

/-- A configuration whose rate reads back is read back in every field. -/
theorem ofText_written_eq_ok_iff {text : String} (words : config.FitsWords)
    (back : config.dropoutRate.ReadsBack) (texts : (record.toValue config).IsText text)
    {found : NetworkConfig} :
    record.ofText text = .ok found ↔
      (∃ literal, config.dropoutRate.documentText? = some literal) ∧ found = config := by
  rw [ofText_written words texts, double_reading_map_eq_ok_iff back]

theorem fitsWords_small : small.FitsWords := by
  refine ⟨by decide, by decide, by decide, by decide, ?_, by decide, by decide⟩
  intro widths listed
  cases listed
  decide

end NetworkConfig

namespace BlockConfig

/-- Whether every count of a block configuration fits a word. -/
structure FitsWords (config : BlockConfig) : Prop where
  inChannels : config.inChannels < Count.limit
  outChannels : config.outChannels < Count.limit
  stride : config.stride < Count.limit
  multiplier : config.multiplier < Count.limit

variable {config : BlockConfig}

/-- Every field of a block configuration writes a sound document. -/
theorem isSound_written (config : BlockConfig) :
    ∀ field ∈ record.fields, (field.write config).IsSound := by
  simp only [record, List.forall_mem_cons]
  exact ⟨Value.isSound_count _, Value.isSound_count _, Value.isSound_count _, trivial,
    Value.isSound_double _, Value.isSound_count _, fun _ member => by cases member⟩

/-- A block configuration is read back from its texts, its rate as the text of the rate is. -/
theorem ofText_written {text : String} (words : config.FitsWords)
    (texts : (record.toValue config).IsText text) :
    record.ofText text = (Value.double config.dropoutRate).reading.double.map fun rate =>
      { config with dropoutRate := rate } := by
  have first : (Value.boolean config.isFirst).reading.bool = .ok config.isFirst := rfl
  rw [Record.ofText_written (by decide) (by decide) config.isSound_written texts]
  simp only [record, Field.rereads, List.foldlM_cons, List.foldlM_nil,
    count_reading words.inChannels, count_reading words.outChannels, count_reading words.stride,
    first, count_reading words.multiplier, bind, Except.bind, pure, Except.pure]
  cases (Value.double config.dropoutRate).reading.double <;> rfl

/-- A block configuration whose rate reads back is read back in every field. -/
theorem ofText_written_eq_ok_iff {text : String} (words : config.FitsWords)
    (back : config.dropoutRate.ReadsBack) (texts : (record.toValue config).IsText text)
    {found : BlockConfig} :
    record.ofText text = .ok found ↔
      (∃ literal, config.dropoutRate.documentText? = some literal) ∧ found = config := by
  rw [ofText_written words texts, double_reading_map_eq_ok_iff back]

end BlockConfig

end InvertibleNet
