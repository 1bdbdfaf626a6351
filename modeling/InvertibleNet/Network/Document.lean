/-
# Configurations as documents

The fields of the configurations of networks and blocks, and of the
specifications in a schedule, as they stand in a document.
-/

import InvertibleNet.Json.Record
import InvertibleNet.Network.Basic

namespace InvertibleNet

open Json

/-- The extents of a sample, as a list of three counts. -/
def SampleShape.ofReading : Reading → Except Json.Fault SampleShape
  | .list items ending =>
      Reading.parts (.arrayOf 3) ending
        [fun place shape => return { shape with channels := ← place.count },
          fun place shape => return { shape with height := ← place.count },
          fun place shape => return { shape with width := ← place.count }]
        items 0 ⟨0, 0, 0⟩
  | other => other.refuse (.arrayOf 3)

/-- The fields of a network configuration. The channels may be left out. -/
def NetworkConfig.record : Record NetworkConfig where
  name := "IRevNetConfigSerde"
  fields := [
    { name := "blocks"
      required := true
      read := fun place config => return { config with blocks := ← place.counts }
      write := fun config => .counts config.blocks },
    { name := "strides"
      required := true
      read := fun place config => return { config with strides := ← place.counts }
      write := fun config => .counts config.strides },
    { name := "num_classes"
      required := true
      read := fun place config => return { config with classes := ← place.count }
      write := fun config => .count config.classes },
    { name := "in_shape"
      required := true
      read := fun place config => return { config with input := ← SampleShape.ofReading place }
      write := fun config => .counts config.input.toList },
    { name := "channels"
      required := false
      read := fun place config => return { config with channels := ← place.optionalCounts }
      write := fun config => (config.channels.map .counts).getD .null },
    { name := "init_ds"
      required := true
      read := fun place config => return { config with initialBlock := ← place.count }
      write := fun config => .count config.initialBlock },
    { name := "dropout_rate"
      required := true
      read := fun place config => return { config with dropoutRate := ← place.double }
      write := fun config => .double config.dropoutRate },
    { name := "mult"
      required := true
      read := fun place config => return { config with multiplier := ← place.count }
      write := fun config => .count config.multiplier }]
  blank := {
    blocks := []
    strides := []
    classes := 0
    input := ⟨0, 0, 0⟩
    channels := none
    initialBlock := 0
    dropoutRate := .zero
    multiplier := 0 }

/-- The fields of a block configuration. -/
def BlockConfig.record : Record BlockConfig where
  name := "IRevNetBlockConfigSerde"
  fields := [
    { name := "in_channels"
      required := true
      read := fun place config => return { config with inChannels := ← place.count }
      write := fun config => .count config.inChannels },
    { name := "out_channels"
      required := true
      read := fun place config => return { config with outChannels := ← place.count }
      write := fun config => .count config.outChannels },
    { name := "stride"
      required := true
      read := fun place config => return { config with stride := ← place.count }
      write := fun config => .count config.stride },
    { name := "is_first"
      required := true
      read := fun place config => return { config with isFirst := ← place.bool }
      write := fun config => .boolean config.isFirst },
    { name := "dropout_rate"
      required := true
      read := fun place config => return { config with dropoutRate := ← place.double }
      write := fun config => .double config.dropoutRate },
    { name := "mult"
      required := true
      read := fun place config => return { config with multiplier := ← place.count }
      write := fun config => .count config.multiplier }]
  blank := {
    inChannels := 0
    outChannels := 0
    stride := 0
    isFirst := false
    dropoutRate := .zero
    multiplier := 0 }

/-- The fields of a block specification. -/
def BlockSpec.record : Record BlockSpec where
  name := "BlockSpec"
  fields := [
    { name := "index"
      required := true
      read := fun place spec => return { spec with index := ← place.count }
      write := fun spec => .count spec.index },
    { name := "in_channels"
      required := true
      read := fun place spec => return { spec with inChannels := ← place.count }
      write := fun spec => .count spec.inChannels },
    { name := "out_channels"
      required := true
      read := fun place spec => return { spec with outChannels := ← place.count }
      write := fun spec => .count spec.outChannels },
    { name := "stride"
      required := true
      read := fun place spec => return { spec with stride := ← place.count }
      write := fun spec => .count spec.stride },
    { name := "is_first"
      required := true
      read := fun place spec => return { spec with isFirst := ← place.bool }
      write := fun spec => .boolean spec.isFirst }]
  blank := {
    index := 0
    inChannels := 0
    outChannels := 0
    stride := 0
    isFirst := false }

end InvertibleNet
