/-
# Configurations that are read

Every count of a document fits a word, and a record keeps what its fields keep. So a
configuration fits words wherever it comes from: from a document in any of its forms, or
from the list of presets.
-/

import InvertibleNet.Proofs.Json.Keeping
import InvertibleNet.Proofs.Network.Document

namespace InvertibleNet

open Json Outcome

/-! ## Configurations -/

/-- Whether the extents of a sample fit words. -/
def SampleShape.FitsWords (shape : SampleShape) : Prop :=
  shape.channels < Count.limit ∧ shape.height < Count.limit ∧ shape.width < Count.limit

theorem SampleShape.fitsWords_of_ofReading {place : Reading} {shape : SampleShape}
    (read : ofReading place = .ok shape) : shape.FitsWords := by
  unfold ofReading at read
  split at read
  · refine Reading.parts_keeps ?_ (show FitsWords ⟨0, 0, 0⟩ by unfold FitsWords; decide) read
    simp only [List.forall_mem_cons]
    refine ⟨?_, ?_, ?_, fun _ member => absurd member List.not_mem_nil⟩
    · intro place before after ⟨_, height, width⟩ reads
      obtain ⟨channels, counted, made⟩ := bind_eq_ok_iff.mp reads
      cases made
      exact ⟨Reading.count_lt counted, height, width⟩
    · intro place before after ⟨channels, _, width⟩ reads
      obtain ⟨height, counted, made⟩ := bind_eq_ok_iff.mp reads
      cases made
      exact ⟨channels, Reading.count_lt counted, width⟩
    · intro place before after ⟨channels, height, _⟩ reads
      obtain ⟨width, counted, made⟩ := bind_eq_ok_iff.mp reads
      cases made
      exact ⟨channels, height, Reading.count_lt counted⟩
  · exact absurd read (Reading.refuse_ne_ok _ _ _)

namespace NetworkConfig

/-- The fields that hold counts read counts of a word, and the rate touches none. -/
theorem fieldsKeep_fitsWords : record.FieldsKeep FitsWords := by
  unfold Record.FieldsKeep
  simp only [record, List.forall_mem_cons]
  refine ⟨?_, ?_, ?_, ?_, ?_, ?_, ?_, ?_, fun _ member => absurd member List.not_mem_nil⟩ <;>
    intro place before after fits reads <;>
    obtain ⟨value, found, made⟩ := bind_eq_ok_iff.mp reads <;>
    cases made
  · exact { fits with blocks := Reading.counts_lt found }
  · exact { fits with strides := Reading.counts_lt found }
  · exact { fits with classes := Reading.count_lt found }
  · exact { fits with input := SampleShape.fitsWords_of_ofReading found }
  · exact { fits with channels := Reading.optionalCounts_lt found }
  · exact { fits with initialBlock := Reading.count_lt found }
  · exact { fits with }
  · exact { fits with multiplier := Reading.count_lt found }

/-- A configuration of a document fits words. -/
theorem fitsWords_of_ofText {text : String} {config : NetworkConfig}
    (read : record.ofText text = .ok config) : config.FitsWords := by
  refine Record.ofText_keeps fieldsKeep_fitsWords ?_ read
  refine ⟨by decide, by decide, by decide, by decide, ?_, by decide, by decide⟩
  intro widths listed
  cases listed

end NetworkConfig

namespace Preset

/-- Whether every count of a preset fits a word. -/
def FitsWords (preset : Preset) : Prop :=
  (∀ depth ∈ preset.blocks, depth < Count.limit) ∧
    (∀ stride ∈ preset.strides, stride < Count.limit) ∧ preset.classes < Count.limit ∧
    preset.input.FitsWords ∧ (∀ width ∈ preset.channels, width < Count.limit) ∧
    preset.initialBlock < Count.limit ∧ preset.multiplier < Count.limit

theorem fitsWords_of_mem : ∀ preset ∈ all, preset.FitsWords := by
  unfold FitsWords SampleShape.FitsWords
  decide

theorem mem_of_find {name : String} {preset : Preset} (found : find name = .ok preset) :
    preset ∈ all := by
  unfold find at found
  split at found
  · next chosen =>
    cases found
    exact List.mem_of_find?_eq_some chosen
  · cases found

/-- The configuration of a preset fits words. -/
theorem fitsWords_of_find {name : String} {preset : Preset} (found : find name = .ok preset) :
    preset.config.FitsWords := by
  obtain ⟨blocks, strides, classes, input, channels, initialBlock, multiplier⟩ :=
    fitsWords_of_mem preset (mem_of_find found)
  refine ⟨blocks, strides, classes, input, ?_, initialBlock, multiplier⟩
  intro widths chosen
  cases chosen
  exact channels

end Preset

end InvertibleNet
