import ClassImports.CommandLine.Run

/-!
# The program

Takes in the part of the file system that the arguments are about, runs the command line on it, and
writes what it leaves behind. Nothing is decided here: which paths matter follows from the
arguments, and everything else happens in `CommandLine.run`.
-/

namespace ClassImports.Program

/-- The directory entry with a name. -/
def entryIn (dir name : String) : IO.FS.DirEntry :=
  { root := dir, fileName := name }

/-- The octets of the file at a path; none if it cannot be read. -/
def contentAt (path : String) : IO Bytes := do
  try
    return (← IO.FS.readBinFile path).toList
  catch _ =>
    return []

/-- The content of a directory, `depth` levels of it. -/
def listingAt : (depth : Nat) → (path : String) → IO Listing
  | 0, _ => return .nil
  | depth + 1, path => do
    let mut listing := Listing.nil
    for entry in ← (entryIn path ".").path.readDir do
      let below := Path.join path entry.fileName
      if ← entry.path.isDir then
        listing := .dir entry.fileName (← listingAt depth below) listing
      else
        listing := .file entry.fileName (← contentAt below) listing
    return listing

/-- How many levels of directories a path can have. -/
def depthLimit : Nat := 2048

/-- A file system with what stands at a place given from the root; `whole` asks for everything
below a directory too. -/
def takeInPlace (fs : FileSystem) (place : List String) (whole : Bool) : IO FileSystem := do
  let path := "/" ++ String.intercalate "/" place
  let entry := entryIn "/" (String.intercalate "/" place)
  if ← entry.path.isDir then
    if whole then
      return { fs with root := (← listingAt depthLimit path).putEntries place fs.root }
    else
      return { fs with root := fs.root.makeDir place }
  else if ← entry.path.pathExists then
    return { fs with root := fs.root.writeFile (← contentAt path) place }
  else
    return fs

/-- A file system with everything that following a path meets, and everything below its end. -/
def takeIn (fs : FileSystem) (path : String) : IO FileSystem := do
  let parts := (Path.split path).filter fun part => part != "" && part != "."
  let mut place := if Path.isAbsolute path then [] else fs.workDir
  let mut fs := fs
  for part in parts do
    place := if part == ".." then place.dropLast else place ++ [part]
    fs ← takeInPlace fs place false
  takeInPlace fs place true

/-- The paths that a command looks at. -/
def pathsOf (fs : FileSystem) (invocation : CommandLine.Invocation) : List String :=
  match invocation.settings.config with
  | some config => [config, invocation.path]
  | none => Config.fileNames.map (Path.join fs.workPath) ++ [invocation.path]

/-- The part of the file system that the arguments are about. -/
def fileSystemFor (arguments : List String) : IO FileSystem := do
  let here := (← IO.currentDir).toString
  let workDir := (Path.split here).filter (· != "")
  let mut fs : FileSystem := { root := Listing.nil.makeDir workDir, workDir }
  if let some (.run invocation) := CommandLine.Request.ofArguments? arguments then
    for path in pathsOf fs invocation do
      fs ← takeIn fs path
  return fs

end ClassImports.Program

/-- Runs the program on its arguments. -/
def main (arguments : List String) : IO UInt32 := do
  let fs ← ClassImports.Program.fileSystemFor arguments
  let outcome := ClassImports.CommandLine.run fs arguments
  IO.print outcome.stdout
  IO.eprint outcome.stderr
  return outcome.exit.toUInt32
