/-!
# Files

The files that the program can reach: those of the directory in which it runs,
which holds no other directory, and the devices, through which the standard
streams can be named like files.  Of the directories around this one nothing is
known but that they exist; what is put into them is gone.

A path is followed name by name, and the first name that cannot be followed
tells the error.
-/

namespace TableParsing.Command

/-- Why a file cannot be opened, created or read. -/
inductive FileError where
  | missing
  | notDirectory
  | isDirectory
  | nameTooLong
  | deviceFull
deriving DecidableEq, Repr

def FileError.message : FileError → String
  | missing => "No such file or directory (os error 2)"
  | notDirectory => "Not a directory (os error 20)"
  | isDirectory => "Is a directory (os error 21)"
  | nameTooLong => "File name too long (os error 36)"
  | deviceFull => "No space left on device (os error 28)"

structure NewFile where
  name : String
  content : String
deriving DecidableEq, Repr

/-! ## Paths -/

/-- A path: names, each to be looked up in the directory that the one before it leads to. -/
structure Path where
  /-- The path begins at the root of all directories. -/
  absolute : Bool
  names : List String
  /-- A slash at the end says that the path leads to a directory. -/
  ofDirectory : Bool
deriving DecidableEq, Repr

namespace Path

/-- The pieces of a text between its slashes. -/
def pieces : List Char → List (List Char)
  | [] => [[]]
  | '/' :: rest => [] :: pieces rest
  | character :: rest =>
    match pieces rest with
    | [] => [[character]]
    | piece :: more => (character :: piece) :: more

def ofString (text : String) : Path where
  absolute := text.toList.head? == some '/'
  names := ((pieces text.toList).filter fun piece => !piece.isEmpty).map String.ofList
  ofDirectory := text.toList.getLast? == some '/'

end Path

/-- The number of bytes that a name can have. -/
def nameLimit : Nat := 255

/-- The number of bytes that the text of a path can have. -/
def pathLimit : Nat := 4095

/-! ## Directories -/

/-- A directory without directories in it: the names of its files with their contents. -/
structure Directory where
  files : List (String × List UInt8)
deriving DecidableEq, Repr

inductive Device where
  /-- It is empty, and takes everything without keeping it. -/
  | null
  /-- It takes nothing. -/
  | full
  | input
  | output
  | errors
deriving DecidableEq, Repr

def Device.ofName? (name : String) : Option Device :=
  [("null", null), ("full", full), ("stdin", input), ("stdout", output),
    ("stderr", errors)].lookup name

/-- Where a path leads, seen from a directory. -/
inductive Place where
  | root
  /-- The directory of the devices. -/
  | devices
  | device (device : Device)
  /-- A directory around the one in which the program runs. -/
  | around
  /-- The directory in which the program runs. -/
  | here
  /-- A file of this directory. -/
  | file (name : String)
deriving DecidableEq, Repr

namespace Place

def isDirectory : Place → Bool
  | device _ | file _ => false
  | _ => true

def parent : Place → Place
  | root | devices => root
  | _ => around

end Place

/-- The directories that the root holds beside that of the devices. -/
def rootDirectories : List String :=
  ["bin", "etc", "home", "lib", "opt", "proc", "root", "run", "sbin", "sys", "tmp", "usr", "var"]

namespace Directory

/-- The place of a name in a directory, if there is one. -/
def find? (directory : Directory) (place : Place) (name : String) : Option Place :=
  match place with
  | .root =>
    if name = "dev" then some .devices
    else if rootDirectories.contains name then some .around
    else none
  | .devices => (Device.ofName? name).map .device
  | .here => if (directory.files.lookup name).isSome then some (.file name) else none
  | _ => none

/-- Follows a name from a place. -/
def enter (directory : Directory) (place : Place) (name : String) : Except FileError Place :=
  if !place.isDirectory then .error .notDirectory
  else if name = "." then .ok place
  else if name = ".." then .ok place.parent
  else if nameLimit < name.utf8ByteSize then .error .nameTooLong
  else
    match directory.find? place name with
    | some found => .ok found
    | none => .error .missing

/-- Follows names one after the other. -/
def follow (directory : Directory) (place : Place) : List String → Except FileError Place
  | [] => .ok place
  | name :: rest =>
    match directory.enter place name with
    | .ok entered => directory.follow entered rest
    | .error error => .error error

/-- The path that a text spells, unless the text is empty or too long. -/
def path? (text : String) : Except FileError Path :=
  if text.isEmpty then .error .missing
  else if pathLimit < text.utf8ByteSize then .error .nameTooLong
  else .ok (.ofString text)

def beginning (path : Path) : Place := if path.absolute then .root else .here

/-- What can be read at the end of a path; a directory can be opened, but there is nothing to read
in it. -/
inductive Content where
  | bytes (bytes : List UInt8)
  /-- What the standard input holds. -/
  | input
  | directory
deriving DecidableEq, Repr

/-- What a path leads to. -/
def openPath (directory : Directory) (text : String) : Except FileError Content := do
  let path ← path? text
  match ← directory.follow (beginning path) path.names with
  | .file name =>
    if path.ofDirectory then .error .notDirectory
    else .ok (.bytes ((directory.files.lookup name).getD []))
  | .device device =>
    if path.ofDirectory then .error .notDirectory
    else .ok (if device = .input then .input else .bytes [])
  | _ => .ok .directory

/-- The content of the file to which a path leads, if it leads to one. -/
def read? (directory : Directory) (text : String) : Option (List UInt8) :=
  match directory.openPath text with
  | .ok (.bytes bytes) => some bytes
  | _ => none

/-- The directory with a file of its own, in place of one of this name. -/
def put (directory : Directory) (name : String) (content : String) : Directory :=
  ⟨(name, content.toUTF8.data.toList) :: directory.files.filter fun other => other.1 != name⟩

/-- What becomes of a file that was created: the directory afterwards, and what is printed if the file
was the standard output. -/
structure Written where
  directory : Directory
  printed : String
deriving DecidableEq, Repr

def writeDevice (directory : Directory) (device : Device) (content : String) :
    Except FileError Written :=
  match device with
  | .full => .error .deviceFull
  | .output => .ok ⟨directory, content⟩
  | .null | .input | .errors => .ok ⟨directory, ""⟩

/-- Creates a file with a name in a place. -/
def createIn (directory : Directory) (place : Place) (name content : String) :
    Except FileError Written :=
  if !place.isDirectory then .error .notDirectory
  else if nameLimit < name.utf8ByteSize then .error .nameTooLong
  else
    match place, directory.find? place name with
    | .here, _ => .ok ⟨directory.put name content, ""⟩
    | _, some (.device device) => directory.writeDevice device content
    | _, some _ => .error .isDirectory
    | _, none => .ok ⟨directory, ""⟩

/-- Creates a file at the end of a path, or replaces it. -/
def write (directory : Directory) (file : NewFile) : Except FileError Written := do
  let path ← path? file.name
  match path.names.getLast? with
  | none => .error .isDirectory
  | some last =>
    let place ← directory.follow (beginning path) path.names.dropLast
    if !place.isDirectory then .error .notDirectory
    else if last = "." ∨ last = ".." ∨ path.ofDirectory then .error .isDirectory
    else directory.createIn place last file.content

end Directory

end TableParsing.Command
