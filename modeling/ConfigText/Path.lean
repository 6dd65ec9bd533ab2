import ConfigText.Table
import ConfigText.Text

/-!
File paths in plain form, without empty steps and steps that stay, and files at the end of paths.
-/

namespace ConfigText

structure Path where
  /-- The slashes in front: none, one or two. -/
  root : Text
  steps : List Text
  deriving DecidableEq

namespace Path

def slash : Char := '/'

def here : Text := ['.']

def parent : Text := ['.', '.']

/-- Three and more slashes in front count as one. -/
def rootOf (slashes : Nat) : Text :=
  match slashes with
  | 0 => []
  | 2 => [slash, slash]
  | _ => [slash]

def ofText (text : Text) : Path where
  root := rootOf (text.takeWhile (· == slash)).length
  steps := (Text.splitAtChar slash text).filter fun step => step != [] && step != here

def toText (path : Path) : Text :=
  match path.root ++ Text.join [slash] path.steps with
  | [] => here
  | text => text

end Path

/-- What is found at a path. -/
inductive Found
  | file (text : Text)
  /-- There is no file. -/
  | nothing
  /-- The path, or a step on the way, is longer than any that can be. -/
  | tooLong
  deriving DecidableEq

/-- Files by their paths. -/
abbrev Files := Path → Found

/-- Files below one directory, by the steps that lead to them. -/
structure FileTree where
  files : Table (List Text) Text

namespace FileTree

/-- Steps with more bytes than this are in no directory. -/
def stepLimit : Nat := 255

/-- Paths have fewer bytes than this. -/
def pathLimit : Nat := 4096

/-- Files given by path and text, written one after the other. -/
def ofList (files : List (Text × Text)) : FileTree :=
  ⟨Table.ofList (files.map fun (path, text) => ((Path.ofText path).steps, text))⟩

/-- Steps that lead to the directory itself or to one on the way to a file. -/
def isDirectory (tree : FileTree) (steps : List Text) : Bool :=
  steps == [] || tree.files.keys.any fun file => steps <+: file && steps != file

/-- What steps lead to from a directory outside of the tree, of which nothing is known but that it
holds no step of the path. -/
def findOutside : List Text → Found
  | [] => .nothing
  | step :: more =>
    if step = Path.parent then findOutside more
    else if stepLimit < Text.byteLength step then .tooLong
    else .nothing

/-- What steps lead to from a place in the tree; only a directory has steps. -/
def find (tree : FileTree) (place : List Text) : List Text → Found
  | [] => (tree.files.find? place).elim .nothing .file
  | step :: more =>
    if !tree.isDirectory place then .nothing
    else if step = Path.parent then
      if place = [] then findOutside more else find tree place.dropLast more
    else if stepLimit < Text.byteLength step then .tooLong
    else find tree (place ++ [step]) more

/-- The files of the tree, where paths without a root start at its directory. -/
def toFiles (tree : FileTree) : Files := fun path =>
  if path.toText.contains '\x00' then .nothing
  else if pathLimit ≤ Text.byteLength path.toText then .tooLong
  else if path.root = [] then tree.find [] path.steps
  else findOutside path.steps

end FileTree
end ConfigText
