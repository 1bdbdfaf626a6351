/-
# File trees

The files that the commands read and write, as a value. A tree maps locations,
lists of names below its root, to directories and files; the root itself is
always a directory. Paths are texts whose names are separated by slashes. They
are followed from the root name by name, and whoever follows one finds out
which step fails. Names and paths have a largest length in bytes, and no path
holds the character of number zero.
-/

import InvertibleNet.Network.Basic

namespace InvertibleNet

/-- What a file holds: a text, the stored weights of a network, which are no
text, or something that is neither. -/
inductive Content where
  | text (text : String)
  | weights (weights : Weights)
  | foreign
  deriving DecidableEq, Repr

/-- What stands at a location. -/
inductive Node where
  | directory
  | file (content : Content)
  deriving DecidableEq, Repr

/-- Why a file operation fails. -/
inductive FileFault where
  | notFound
  | alreadyExists
  | notDirectory
  | isDirectory
  | nameTooLong
  | zeroCharacter
  | notText
  deriving DecidableEq, Repr

def FileFault.text : FileFault → String
  | .notFound => "No such file or directory (os error 2)"
  | .alreadyExists => "File exists (os error 17)"
  | .notDirectory => "Not a directory (os error 20)"
  | .isDirectory => "Is a directory (os error 21)"
  | .nameTooLong => "File name too long (os error 36)"
  | .zeroCharacter => "file name contained an unexpected NUL byte"
  | .notText => "stream did not contain valid UTF-8"

/-- The names from the root of a tree to a place in it. -/
abbrev Location := List String

/-- A path below another one. -/
def joinPath (directory name : String) : String :=
  if directory.isEmpty then name
  else if directory.toList.getLast? = some '/' then directory ++ name
  else directory ++ "/" ++ name

/-- The parts of a path between its slashes. -/
def pathParts (path : String) : List String := (path.toList.splitOn '/').map String.ofList

/-- The names of a path, without the ones that stay in place. A single dot at
the start counts as a name. -/
def pathNames (path : String) : List String :=
  match pathParts path with
  | [] => []
  | first :: rest =>
      (if first.isEmpty then [] else [first]) ++
        rest.filter fun name => !name.isEmpty && name != "."

/-- The paths of the directories above a path, the nearest one first. -/
def pathsAbove (path : String) : List String :=
  let names := (pathNames path).dropLast
  ((List.range names.length).map fun count => "/".intercalate (names.take (count + 1))).reverse

/-- A path without the slashes at its end. -/
def withoutTrailingSlashes (path : String) : String :=
  String.ofList (path.toList.reverse.dropWhile (· = '/')).reverse

/-- The most bytes that a name can have. -/
def longestName : Nat := 255

/-- The most bytes that a path can have. -/
def longestPath : Nat := 4095

/-- Refuse a text that can be no path, wherever it may lead. -/
def checkPath (path : String) : Except FileFault Unit :=
  if path.toList.any (·.toNat = 0) then .error .zeroCharacter
  else if longestPath < path.utf8ByteSize then .error .nameTooLong
  else .ok ()

structure FileTree where
  nodes : List (Location × Node)
  deriving DecidableEq, Repr

namespace FileTree

def empty : FileTree := ⟨[]⟩

/-- What stands at a location. -/
def find? (tree : FileTree) (location : Location) : Option Node :=
  if location = [] then some .directory
  else (tree.nodes.find? (·.1 == location)).map (·.2)

/-- Put a node at a location. -/
def put (tree : FileTree) (location : Location) (node : Node) : FileTree :=
  ⟨(location, node) :: tree.nodes.filter (·.1 != location)⟩

/-- Follow names from a location. Every name but the last has to lead to a
directory; the last one may lead nowhere. -/
def follow (tree : FileTree) (location : Location) : List String → Except FileFault Location
  | [] => .ok location
  | name :: rest =>
      match tree.find? location with
      | none => .error .notFound
      | some (.file _) => .error .notDirectory
      | some .directory =>
          if name = "" ∨ name = "." then tree.follow location rest
          else if name = ".." then tree.follow location.dropLast rest
          else if longestName < name.utf8ByteSize then .error .nameTooLong
          else tree.follow (location ++ [name]) rest

/-- The location that a path leads to. -/
def locate (tree : FileTree) (path : String) : Except FileFault Location := do
  checkPath path
  if path = "" then throw .notFound
  tree.follow [] (pathParts path)

/-- What a path leads to. -/
def lookup? (tree : FileTree) (path : String) : Option Node :=
  match tree.locate path with
  | .ok location => tree.find? location
  | .error _ => none

def isDirectory (tree : FileTree) (path : String) : Bool :=
  tree.lookup? path = some .directory

def hasPath (tree : FileTree) (path : String) : Bool := (tree.lookup? path).isSome

/-- The content of a file. -/
def read (tree : FileTree) (path : String) : Except FileFault Content := do
  match tree.find? (← tree.locate path) with
  | none => throw .notFound
  | some .directory => throw .isDirectory
  | some (.file content) => return content

/-- The text of a file. -/
def readText (tree : FileTree) (path : String) : Except FileFault String := do
  match ← tree.read path with
  | .text text => return text
  | .weights _ | .foreign => throw .notText

/-- Replace a file, or create it in a directory that exists. -/
def write (tree : FileTree) (path : String) (content : Content) : Except FileFault FileTree := do
  let location ← tree.locate path
  match tree.find? location with
  | some .directory => throw .isDirectory
  | _ => return tree.put location (.file content)

/-- Create one directory in a directory that exists. -/
def makeDirectory (tree : FileTree) (path : String) : Except FileFault FileTree := do
  checkPath path
  let location ← tree.locate (withoutTrailingSlashes path)
  match tree.find? location with
  | some _ => throw .alreadyExists
  | none => return tree.put location .directory

/-- Create a directory unless it exists already. The result is the tree behind
the attempt, and why the attempt failed if it did. -/
def settleDirectory (tree : FileTree) (path : String) : FileTree × Option FileFault :=
  match tree.makeDirectory path with
  | .ok made => (made, none)
  | .error fault => (tree, if tree.isDirectory path then none else some fault)

/-- Create the first of some directories, each of which holds the one in front
of it, and those of the others that are missing. Those stay in the tree also if
the first one cannot be created. -/
def makeDirectories (tree : FileTree) : (paths : List String) → FileTree × Option FileFault
  | [] => (tree, none)
  | path :: above =>
      match tree.makeDirectory path with
      | .error .notFound =>
          match tree.makeDirectories above with
          | (tree, none) => tree.settleDirectory path
          | failed => failed
      | _ => tree.settleDirectory path

/-- Create a directory and everything missing on the way to it. The empty path
asks for nothing. -/
def ensureDirectory (tree : FileTree) (path : String) : FileTree × Option FileFault :=
  if path = "" then (tree, none) else tree.makeDirectories (path :: pathsAbove path)

end FileTree

end InvertibleNet
