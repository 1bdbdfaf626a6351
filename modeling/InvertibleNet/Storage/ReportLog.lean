/-
# Report logs

A report log is a directory with a table and one document for each seed. The
table has a header line and then one line for every block of every logged
report; logging only appends to it. The document of a seed is the last report
logged with that seed.
-/

import InvertibleNet.Report.Document
import InvertibleNet.Storage.Session

namespace InvertibleNet

/-- A directory that holds a report log, by its path. -/
structure ReportLog where
  directory : String
  deriving DecidableEq, Repr

/-- The first line of the table. -/
def tableHeader : String :=
  "seed,block,in_channels,out_channels,stride,injective,max_abs_error\n"

/-- The line of a block in the table. -/
def Report.tableLine (report : Report) (entry : BlockError) : String :=
  s!"{report.seed},{entry.spec.index},{entry.spec.inChannels},{entry.spec.outChannels}," ++
    s!"{entry.spec.stride},{entry.spec.isInjective},{entry.maxAbsError.tableText}\n"

/-- The lines of a report in the table. -/
def Report.tableLines (report : Report) : String :=
  String.join (report.blocks.map report.tableLine)

namespace ReportLog

def tablePath (log : ReportLog) : String := joinPath log.directory "reconstruction.csv"

def documentPath (log : ReportLog) (seed : Nat) : String :=
  joinPath log.directory s!"probe_seed_{seed}.json"

/-- Open a log. The directory and the table are created if they are missing. -/
def openOrCreate (directory : String) : Action ReportLog := do
  Action.attempting (.createReports directory) (Action.ensureDirectory directory)
  let log : ReportLog := ⟨directory⟩
  if !(← get).files.hasPath log.tablePath then
    Action.changing fun files => files.write log.tablePath (.text tableHeader)
  return log

/-- Append some lines to the table. -/
def appendLines (log : ReportLog) (lines : String) : Action Unit :=
  Action.attempting (.openTable log.tablePath) do
    let text ← Action.reading fun files => files.readText log.tablePath
    Action.changing fun files => files.write log.tablePath (.text (text ++ lines))

/-- Log a report: its lines first, then its document. -/
def add (log : ReportLog) (report : Report) : Action Unit := do
  log.appendLines report.tableLines
  let path := log.documentPath report.seed
  Action.attempting (.writeReport path)
    (Action.changing fun files =>
      files.write path (.text (Report.record.toValue report).pretty))

end ReportLog

end InvertibleNet
