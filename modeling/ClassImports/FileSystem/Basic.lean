import ClassImports.BigEndian
import ClassImports.FileSystem.Path
import ClassImports.Text.Utf8

/-!
# File systems

The files and directories that a program can see, as a value: a tree of directories, and the
directory in which the program works. Paths are followed component by component; each step but
the last must lead to a directory. There are no links between directories, so `..` leads back to
where a path came from.
-/

namespace ClassImports

/-- The content of a directory: its files and its directories, in no particular order. -/
inductive Listing where
  | nil
  | file (name : String) (content : Bytes) (rest : Listing)
  | dir (name : String) (entries : Listing) (rest : Listing)
  deriving DecidableEq, Repr, Inhabited

/-- What a path leads to. -/
inductive Node where
  | file (content : Bytes)
  | dir (entries : Listing)
  deriving DecidableEq, Repr, Inhabited

namespace Listing

/-- The file or directory with a name. -/
def find? (name : String) : Listing → Option Node
  | nil => none
  | file other content rest => if other = name then some (.file content) else rest.find? name
  | dir other entries rest => if other = name then some (.dir entries) else rest.find? name

/-- The content without the file or directory with a name. -/
def erase (name : String) : Listing → Listing
  | nil => nil
  | file other content rest =>
    if other = name then rest else file other content (rest.erase name)
  | dir other entries rest =>
    if other = name then rest else dir other entries (rest.erase name)

/-- The content with a file or directory under a name, which replaces what was there. -/
def put (name : String) (node : Node) (listing : Listing) : Listing :=
  match node with
  | .file content => file name content (listing.erase name)
  | .dir entries => dir name entries (listing.erase name)

/-- What the directory with a name holds; nothing if there is none. -/
def entriesOf (name : String) (listing : Listing) : Listing :=
  match listing.find? name with
  | some (.dir entries) => entries
  | _ => nil

/-- The content with a file at a path; directories on the way are made. -/
def writeFile (content : Bytes) : List String → Listing → Listing
  | [], listing => listing
  | [name], listing => listing.put name (.file content)
  | name :: path, listing =>
    listing.put name (.dir (writeFile content path (listing.entriesOf name)))

/-- The content with a directory at a path; directories on the way are made. -/
def makeDir : List String → Listing → Listing
  | [], listing => listing
  | name :: path, listing => listing.put name (.dir (makeDir path (listing.entriesOf name)))

/-- The content with the given entries as those of the directory at a path; directories on the way
are made. -/
def putEntries (entries : Listing) : List String → Listing → Listing
  | [], _ => entries
  | name :: path, listing =>
    listing.put name (.dir (putEntries entries path (listing.entriesOf name)))

/-- The content without the file or directory at a path. -/
def remove : List String → Listing → Listing
  | [], listing => listing
  | [name], listing => listing.erase name
  | name :: path, listing =>
    match listing.find? name with
    | some (.dir entries) => listing.put name (.dir (remove path entries))
    | _ => listing

end Listing

/-- A tree of directories, and the path of the working directory from the root. -/
structure FileSystem where
  root : Listing := .nil
  workDir : List String := []
  deriving DecidableEq, Repr, Inhabited

/-- Why a path cannot be followed or a file not be read. -/
inductive AccessError where
  | notFound
  | notDirectory
  | isDirectory
  | nameTooLong
  /-- The path holds the character NUL. -/
  | invalidName
  /-- The file is not text. -/
  | notText
  deriving DecidableEq, Repr

/-- The error in words. -/
def AccessError.message : AccessError → String
  | notFound => "No such file or directory (os error 2)"
  | notDirectory => "Not a directory (os error 20)"
  | isDirectory => "Is a directory (os error 21)"
  | nameTooLong => "File name too long (os error 36)"
  | invalidName => "file name contained an unexpected NUL byte"
  | notText => "stream did not contain valid UTF-8"

namespace FileSystem

/-- The longest name of a file or directory, in octets. -/
def nameLimit : Nat := 255

/-- The longest path, in octets. -/
def pathLimit : Nat := 4095

/-- Follows the parts of a path from a node; `above` holds the directories that contain it,
innermost first. Above the root there is the root. -/
def follow (above : List Listing) : Node → List String → Except AccessError Node
  | node, [] => .ok node
  | .file _, _ :: _ => .error .notDirectory
  | .dir entries, part :: parts =>
    if part = "" ∨ part = "." then follow above (.dir entries) parts
    else if part = ".." then
      match above with
      | [] => follow [] (.dir entries) parts
      | up :: above => follow above (.dir up) parts
    else if nameLimit < part.utf8ByteSize then .error .nameTooLong
    else
      match entries.find? part with
      | some node => follow (entries :: above) node parts
      | none => .error .notFound

/-- What a path leads to. -/
def locate (fs : FileSystem) (path : String) : Except AccessError Node :=
  if '\x00' ∈ path.toList then .error .invalidName
  else if path = "" then .error .notFound
  else if pathLimit < path.utf8ByteSize then .error .nameTooLong
  else
    let parts := Path.split path
    follow [] (.dir fs.root) (if Path.isAbsolute path then parts else fs.workDir ++ parts)

/-- Whether a path leads anywhere. -/
def pathExists (fs : FileSystem) (path : String) : Bool :=
  (fs.locate path).toOption.isSome

/-- The content of the file at a path. -/
def read (fs : FileSystem) (path : String) : Except AccessError Bytes :=
  match fs.locate path with
  | .ok (.file content) => .ok content
  | .ok (.dir _) => .error .isDirectory
  | .error error => .error error

/-- The content of the text file at a path. -/
def readText (fs : FileSystem) (path : String) : Except AccessError String :=
  match fs.read path with
  | .ok content =>
    match Utf8.decode? content with
    | some text => .ok (String.ofList text)
    | none => .error .notText
  | .error error => .error error

/-- The working directory as an absolute path. -/
def workPath (fs : FileSystem) : String :=
  "/" ++ String.intercalate "/" fs.workDir

end FileSystem

end ClassImports
