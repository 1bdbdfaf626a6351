/-
# Configurations that are read and written again

A configuration that was read, from a document in any of its forms, has counts that fit
words and a rate that is a number. That is all it takes for its own two texts to hold it
in full, so reading either of them gives the same configuration again, in every field.

The one thing that is not settled here is the text of the rate: the library writes the
shortest digits of a number and reads digits with roundings of its own, so the text of
some numbers stands for another number. The statements ask for the rate at hand that it
reads back.
-/

import InvertibleNet.Proofs.Json.Finite
import InvertibleNet.Proofs.Network.Words

namespace InvertibleNet

open Json Outcome

namespace NetworkConfig

variable {config : NetworkConfig}

/-- One field reads the rate, as a number, and no other field touches it. -/
theorem fieldsKeep_isFinite : record.FieldsKeep fun config => config.dropoutRate.IsFinite := by
  unfold Record.FieldsKeep
  simp only [record, List.forall_mem_cons]
  refine ⟨?_, ?_, ?_, ?_, ?_, ?_, ?_, ?_, fun _ member => absurd member List.not_mem_nil⟩ <;>
    intro place before after finite reads <;>
    obtain ⟨value, found, made⟩ := bind_eq_ok_iff.mp reads <;>
    cases made
  any_goals exact finite
  exact Reading.isFinite_double found

/-- The rate of a configuration of a document is a number. -/
theorem isFinite_of_ofText {text : String} (read : record.ofText text = .ok config) :
    config.dropoutRate.IsFinite :=
  Record.ofText_keeps fieldsKeep_isFinite (by decide) read

/-- A configuration of a document is read back from either of its own texts. -/
theorem reread {text again : String} (read : record.ofText text = .ok config)
    (back : config.dropoutRate.ReadsBack) (texts : (record.toValue config).IsText again) :
    record.ofText again = .ok config :=
  (ofText_written_eq_ok_iff (fitsWords_of_ofText read) back texts).mpr
    ⟨(Double.exists_documentText_iff _).mpr (isFinite_of_ofText read), rfl⟩

/-- A document in which nothing but null stands where the channels do lists none, be it that
they are null or that they are absent. -/
theorem channels_eq_none_of_ofText {text : String}
    (unlisted : ∀ field place, record.Stands field place (Document.ofText text.toList).reading →
      field.name = "channels" → place = .null)
    (read : record.ofText text = .ok config) : config.channels = none := by
  refine @Record.ofText_keeps_at _ record (·.channels = none) text config ?_ rfl read
  intro field place stands before after none reads
  have here := unlisted field place stands
  have member := stands.mem
  simp only [record, List.mem_cons, List.not_mem_nil, or_false] at member
  rcases member with rfl | rfl | rfl | rfl | rfl | rfl | rfl | rfl <;>
    obtain ⟨value, found, made⟩ := bind_eq_ok_iff.mp reads <;>
    cases made
  any_goals exact none
  obtain rfl := here rfl
  cases found
  rfl

/-- A configuration at the edges of its fields: the largest count, no channels and the
negative zero. -/
def extreme : NetworkConfig where
  blocks := [1, 1]
  strides := [1, 2]
  classes := 18446744073709551615
  input := ⟨2, 8, 8⟩
  channels := none
  initialBlock := 0
  dropoutRate := Double.zero.neg
  multiplier := 4

/-- A text of that configuration as a list. -/
def extremeText : String := "[[1,1], [1,2], 18446744073709551615, [2,8,8], null, 0, -0e0, 4]"

theorem ofText_extremeText : record.ofText extremeText = .ok extreme := by decide +kernel

theorem readsBack_extreme : extreme.dropoutRate.ReadsBack := by decide +kernel

/-- Whether the fifth item of a list is null. -/
def fifthIsNull : Reading → Bool
  | .list items _ => match items[4]? with
    | some Reading.null => true
    | _ => false
  | _ => false

/-- In a list the channels are the fifth item. -/
theorem unlisted_of_fifthIsNull {reading : Reading} (fifth : fifthIsNull reading = true)
    {field : Json.Field NetworkConfig} {place : Reading} (stands : record.Stands field place reading)
    (named : field.name = "channels") : place = .null := by
  unfold fifthIsNull at fifth
  split at fifth
  · next items ending =>
    obtain ⟨n, chosen, here⟩ := stands
    have names : (record.fields.map (·.name))[4]? = (record.fields.map (·.name))[n]? := by
      rw [List.getElem?_map, List.getElem?_map, chosen, Option.map_some, named]
      rfl
    have bound : 4 < (record.fields.map (·.name)).length := by decide
    obtain rfl : 4 = n := (List.getElem?_inj bound (by decide)).mp names
    rw [here] at fifth
    split at fifth
    · next null =>
      cases null
      rfl
    · cases fifth
  · cases fifth

theorem fifthIsNull_extremeText :
    fifthIsNull (Document.ofText extremeText.toList).reading = true := by decide +kernel

end NetworkConfig

namespace BlockConfig

variable {config : BlockConfig}

/-- The fields that hold counts read counts of a word, and the other two touch none. -/
theorem fieldsKeep_fitsWords : record.FieldsKeep FitsWords := by
  unfold Record.FieldsKeep
  simp only [record, List.forall_mem_cons]
  refine ⟨?_, ?_, ?_, ?_, ?_, ?_, fun _ member => absurd member List.not_mem_nil⟩ <;>
    intro place before after fits reads <;>
    obtain ⟨value, found, made⟩ := bind_eq_ok_iff.mp reads <;>
    cases made
  · exact { fits with inChannels := Reading.count_lt found }
  · exact { fits with outChannels := Reading.count_lt found }
  · exact { fits with stride := Reading.count_lt found }
  · exact { fits with }
  · exact { fits with }
  · exact { fits with multiplier := Reading.count_lt found }

/-- A block configuration of a document fits words. -/
theorem fitsWords_of_ofText {text : String} (read : record.ofText text = .ok config) :
    config.FitsWords :=
  Record.ofText_keeps fieldsKeep_fitsWords ⟨by decide, by decide, by decide, by decide⟩ read

/-- One field reads the rate, as a number, and no other field touches it. -/
theorem fieldsKeep_isFinite : record.FieldsKeep fun config => config.dropoutRate.IsFinite := by
  unfold Record.FieldsKeep
  simp only [record, List.forall_mem_cons]
  refine ⟨?_, ?_, ?_, ?_, ?_, ?_, fun _ member => absurd member List.not_mem_nil⟩ <;>
    intro place before after finite reads <;>
    obtain ⟨value, found, made⟩ := bind_eq_ok_iff.mp reads <;>
    cases made
  any_goals exact finite
  exact Reading.isFinite_double found

/-- The rate of a block configuration of a document is a number. -/
theorem isFinite_of_ofText {text : String} (read : record.ofText text = .ok config) :
    config.dropoutRate.IsFinite :=
  Record.ofText_keeps fieldsKeep_isFinite (by decide) read

/-- A block configuration of a document is read back from either of its own texts. -/
theorem reread {text again : String} (read : record.ofText text = .ok config)
    (back : config.dropoutRate.ReadsBack) (texts : (record.toValue config).IsText again) :
    record.ofText again = .ok config :=
  (ofText_written_eq_ok_iff (fitsWords_of_ofText read) back texts).mpr
    ⟨(Double.exists_documentText_iff _).mpr (isFinite_of_ofText read), rfl⟩

/-- A block configuration at the edges of its fields: the largest count and the smallest
number. -/
def extreme : BlockConfig where
  inChannels := 8
  outChannels := 18446744073709551615
  stride := 1
  isFirst := true
  dropoutRate := ⟨1⟩
  multiplier := 4

/-- A text of that block configuration as a map, its keys in another order and one more. -/
def extremeText : String :=
  "\x7b\"mult\": 4, \"note\": [null], \"dropout_rate\": 0.5e-323, \"is_first\": true, " ++
    "\"stride\": 1, \"out_channels\": 18446744073709551615, \"in_channels\": 8\x7d"

theorem ofText_extremeText : record.ofText extremeText = .ok extreme := by decide +kernel

theorem readsBack_extreme : extreme.dropoutRate.ReadsBack := by decide +kernel

end BlockConfig

/-- The rate of every preset is a number. -/
theorem Preset.isFinite_of_find {name : String} {preset : Preset}
    (found : Preset.find name = .ok preset) : preset.dropoutRate.IsFinite := by
  have finite : ∀ preset ∈ Preset.all, preset.dropoutRate.IsFinite := by decide +kernel
  exact finite preset (Preset.mem_of_find found)

end InvertibleNet
