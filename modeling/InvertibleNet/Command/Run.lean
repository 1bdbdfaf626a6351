/-
# Running commands

What each command prints. A command fails with the failure of its work; a check
that does not pass prints its findings first.
-/

import InvertibleNet.Command.Arguments
import InvertibleNet.Command.Init
import InvertibleNet.Command.Summary

namespace InvertibleNet

/-- A text with blanks in front of it, up to a width. -/
def alignRight (width : Nat) (text : String) : String :=
  String.ofList (List.replicate (width - text.length) ' ') ++ text

/-- A text with blanks behind it, up to a width. -/
def alignLeft (width : Nat) (text : String) : String :=
  text ++ String.ofList (List.replicate (width - text.length) ' ')

/-- The line of a preset in the list of presets. -/
def Preset.line (preset : Preset) : String :=
  s!"{alignLeft 16 preset.name} blocks={Count.listText preset.blocks} " ++
    s!"channels={Count.listText preset.channels} " ++
    s!"input={Count.listText preset.input.toList} classes={preset.classes}"

/-- The six cells of a line in the table of blocks. -/
def blockRow (index inChannels outChannels stride injective first : String) : String :=
  " ".intercalate [alignRight 5 index, alignRight 6 inChannels, alignRight 6 outChannels,
    alignRight 6 stride, alignRight 9 injective, alignRight 6 first]

/-- The line of a block in the table of blocks. -/
def BlockSpec.line (spec : BlockSpec) : String :=
  blockRow (toString spec.index) (toString spec.inChannels) (toString spec.outChannels)
    (toString spec.stride) (toString spec.isInjective) (toString spec.isFirst)

/-- The lines of a summary. -/
def Summary.lines (summary : Summary) : List String :=
  [s!"i-RevNet-{summary.depth}  ({summary.blocks.length} blocks)",
    blockRow "block" "in" "out" "stride" "injective" "first"] ++
  summary.blocks.map (·.line) ++
  [s!"bijective features: {Count.listText summary.features.toList}",
    s!"classes:            {summary.config.classes}",
    s!"parameters:         {summary.parameters}"]

/-- The lines that say what a check has found. -/
def Report.lines (report : Report) : List String :=
  (report.worst?.toList.map fun worst =>
    s!"worst block: #{worst.spec.index} (stride {worst.spec.stride}) " ++
      s!"error {worst.maxAbsError.messageText 3}") ++
  [s!"end-to-end reconstruction error: {report.endToEnd.messageText 3} " ++
    s!"(tolerance {report.tolerance.messageText 1})"]

/-- Print some lines. -/
def Action.printLines (lines : List String) : Action Unit := lines.forM Action.printLine

/-- Do what the program is asked to do. -/
def Command.run : Command → Action Unit
  | .presets => Action.printLines (Preset.all.map (·.line))
  | .summary source => do Action.printLines (← source.summarise).lines
  | .init source directory _ => do
      let parameters ← source.initialise directory
      Action.printLine s!"Saved network with {parameters} parameters to '{directory}'."
  | .check request backend => do
      Action.log .info .command s!"Running reconstruction check on {backend.title}"
      let report ← request.run
      Action.printLines report.lines
      if !report.passed then throw (.refused .outsideTolerance)
      Action.printLine "OK"

end InvertibleNet
