import Lamplighter.Text.Quoted

/-! # Paths and files

A path is tidied when it is read: doubled and final slashes and parts that name the same directory
again are dropped, while parts that go up stay. A path without parts is the working directory. Two
slashes at the start are kept apart from one, and more than two count as one.

Files are given by what reading a path comes to, so that a command can be run on a folder that is
held in memory. A path is followed part by part, and the first part that cannot be followed decides
what is wrong. A name takes at most 255 bytes and a path at most 4095.
-/

namespace Lamplighter.CommandLine

/-- A tidied path: its root, which is empty for a relative path, and its parts. -/
structure Path where
  root : Text
  parts : List Text
deriving DecidableEq, Repr

namespace Path

/-- The part that stands for the directory itself. -/
def same : Text := ['.']

def up : Text := ['.', '.']

def rootOf (text : Text) : Text :=
  match (text.takeWhile (· == '/')).length with
  | 0 => []
  | 2 => ['/', '/']
  | _ => ['/']

def ofText (text : Text) : Path :=
  ⟨rootOf text, (Text.splitAt '/' text).filter fun part => !part.isEmpty && part != same⟩

def text (path : Path) : Text :=
  if path.root.isEmpty && path.parts.isEmpty then same
  else path.root ++ Text.join ['/'] path.parts

def byteSize : Text → Nat
  | [] => 0
  | c :: rest => c.utf8Size + byteSize rest

/-- Whether a part takes more bytes than a name can have. -/
def isLongName (part : Text) : Bool := 255 < byteSize part

/-- Whether a path takes more bytes than can be looked up at once. -/
def isLong (path : Path) : Bool := 4095 < byteSize path.text

/-- The text of a path, for a message. -/
def shown (path : Path) : String := String.ofList path.text

end Path

inductive FileFault where
  /-- Nothing is there. -/
  | missing
  /-- The path leads to a directory. -/
  | directory
  /-- The path leads through a file. -/
  | notDirectory
  /-- The path or a part of it takes too many bytes. -/
  | tooLong
  /-- The path has a NUL character. -/
  | nulInPath
deriving DecidableEq, Repr

/-- What reading a path comes to. -/
abbrev Files := Path → Except FileFault (List UInt8)

/-- Files that have been read; any other one is missing. -/
def filesOf (contents : List (Path × Except FileFault (List UInt8))) : Files := fun path =>
  match contents.find? fun entry => entry.1 == path with
  | some entry => entry.2
  | none => .error .missing

/-- The files of a working directory, each with the parts of its path. -/
structure Folder where
  files : List (List Text × List UInt8)

namespace Folder

def ofList (files : List (Text × List UInt8)) : Folder :=
  ⟨files.map fun (name, bytes) => ((Path.ofText name).parts, bytes)⟩

def file? (folder : Folder) (parts : List Text) : Option (List UInt8) :=
  (folder.files.find? fun file => file.1 == parts).map Prod.snd

/-- Whether there are files below a path. -/
def hasDirectory (folder : Folder) (parts : List Text) : Bool :=
  folder.files.any fun file => parts.isPrefixOf file.1 && parts.length < file.1.length

/-- A path that has left the folder: its ancestors are directories, and nothing else is known. -/
def readOutside : (parts : List Text) → Except FileFault (List UInt8)
  | [] => .error .directory
  | part :: rest =>
    if part = Path.up then readOutside rest
    else if Path.isLongName part then .error .tooLong
    else .error .missing

/-- Follows the parts of a path from a directory of the folder. -/
def follow (folder : Folder) (here : List Text) : List Text → Except FileFault (List UInt8)
  | [] => .error .directory
  | part :: rest =>
    if part = Path.up then
      if here.isEmpty then readOutside rest else follow folder here.dropLast rest
    else if Path.isLongName part then .error .tooLong
    else
      let next := here ++ [part]
      match folder.file? next with
      | some bytes => if rest.isEmpty then .ok bytes else .error .notDirectory
      | none => if folder.hasDirectory next then follow folder next rest else .error .missing

/-- What reading a path comes to in the folder as the working directory. -/
def read (folder : Folder) : Files := fun path =>
  if path.text.contains (Char.ofNat 0) then .error .nulInPath
  else if path.isLong then .error .tooLong
  else if path.root.isEmpty then folder.follow [] path.parts
  else readOutside path.parts

end Folder

end Lamplighter.CommandLine
