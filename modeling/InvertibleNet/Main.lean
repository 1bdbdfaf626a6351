/-
# The program

The command line on real files. The paths of a command are copied into a file
tree, the command runs on the tree, and what it has changed there is written
back, also when the command fails.
-/

import InvertibleNet.Command.Footprint
import InvertibleNet.Command.Run
import InvertibleNet.Storage.WeightFile

namespace InvertibleNet

/-- What the bytes of a file hold. -/
def Content.ofBytes (bytes : ByteArray) : Content :=
  match WeightFile.toWeights? bytes with
  | some stored => .weights stored
  | none =>
      match String.fromUTF8? bytes with
      | some written => .text written
      | none => .foreign

/-- What stands at a path. A path that is there but cannot be read as a file is
taken for a directory. -/
def nodeAt (path : String) : IO (Option Node) := do
  try
    return some (.file (Content.ofBytes (← IO.FS.readBinFile path)))
  catch
    | .noFileOrDirectory .. => return none
    | _ => return some .directory

/-- Copy what stands at a path into a tree. -/
def FileTree.withPath (tree : FileTree) (path : String) : IO FileTree := do
  match tree.locate path with
  | .error _ => return tree
  | .ok [] => return tree
  | .ok location =>
      match ← nodeAt path with
      | some node => return tree.put location node
      | none => return tree

/-- Write a changed node to its path. -/
def writeNode (path : String) : Node → IO Unit
  | .directory => IO.FS.createDirAll path
  | .file (.text text) => IO.FS.writeFile path text
  | .file (.weights weights) => IO.FS.writeBinFile path (WeightFile.ofWeights weights)
  | .file .foreign => return ()

/-- Write back what has changed at a path. -/
def writeChange (before after : FileTree) (path : String) : IO Unit := do
  match after.lookup? path with
  | none => return ()
  | some node => if before.lookup? path ≠ some node then writeNode path node

/-- The lines that explain how the program is called. -/
def usage : List String := [
  "Build, inspect and verify invertible residual networks (i-RevNet).",
  "",
  "Usage: irevnet <COMMAND>",
  "",
  "Commands:",
  "  presets  List the named architectures",
  "  summary  Describe an architecture without running it",
  "  init     Build a network and save it as a checkpoint",
  "  check    Run the forward/inverse reconstruction check",
  "  help     Print this message"]

/-- Run a command on real files. The result is the exit code. -/
def runCommand (command : Command) : IO UInt32 := do
  let paths := command.paths.flatMap pathAndAbove
  let before ← paths.foldlM FileTree.withPath FileTree.empty
  let (result, session) := command.run.run.run (.start before)
  for line in session.log do
    IO.eprintln line.text
  for path in paths do
    writeChange before session.files path
  IO.print session.output
  match result with
  | .ok () => return 0
  | .error failure =>
      IO.eprintln s!"Error: {failure.message}"
      return 1

/-- Answer arguments that lead to no command. -/
def answerFault (fault : ArgumentFault) : IO UInt32 := do
  match fault with
  | .helpRequested =>
      usage.forM fun line => IO.println line
      return 0
  | .versionRequested =>
      IO.println "irevnet 0.1.0"
      return 0
  | .noCommand =>
      usage.forM fun line => IO.eprintln line
      return 2
  | other =>
      IO.eprintln s!"error: {other.text}"
      return 2

end InvertibleNet

def main (arguments : List String) : IO UInt32 :=
  match InvertibleNet.Command.ofArguments arguments with
  | .ok command => InvertibleNet.runCommand command
  | .error fault => InvertibleNet.answerFault fault
