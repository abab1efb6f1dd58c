import ClassImports.ClassFile.Reader
import ClassImports.Config
import ClassImports.FileSystem.Basic
import ClassImports.ImportFilter

/-!
# Failures

Everything that can stop a command, as causes. A failure is told as a chain of sentences, from
what was attempted to what went wrong.
-/

namespace ClassImports

/-- Why a command failed. -/
inductive Failure where
  /-- There is nothing at the path to look at. -/
  | noSuchPath (path : String)
  /-- The path to look at is a file, but no class file. -/
  | notClassFile (path : String)
  | badInclude (error : Glob.Error)
  | badExclude (error : Glob.Error)
  | badIgnore (error : ImportFilter.Error)
  /-- The lines of a selection cannot be used together. -/
  | badSelection (error : Glob.DepthError)
  /-- A directory below the path to look at cannot be entered. -/
  | directoryUnreadable (path : String) (error : AccessError)
  /-- There is no settings file at the path that was given for it. -/
  | configNotFound (path : String)
  | configUnreadable (path : String) (error : AccessError)
  | configInvalid (path : String) (error : ConfigError)
  | classUnreadable (path : String) (error : AccessError)
  | classInvalid (path : String) (error : ClassFile.ReadError)
  /-- All class files below the path failed, `count` of them, the first of them with `first`. -/
  | noReadableClass (path : String) (count : Nat) (first : String)
  deriving DecidableEq, Repr

namespace Failure

/-- What was attempted. -/
def headline : Failure → String
  | noSuchPath path => "path does not exist: " ++ path
  | notClassFile path => "not a class file: " ++ path
  | badInclude _ => "invalid include pattern"
  | badExclude _ => "invalid exclude pattern"
  | badIgnore (.badGlob error) => "invalid ignore pattern: " ++ error.text
  | badIgnore (.tooDeep error) => error.message
  | badSelection _ => "failed to build overrides"
  | directoryUnreadable _ _ => "error reading directory entry"
  | configNotFound path => "config file not found: " ++ path
  | configUnreadable path _ => "Failed to read " ++ path
  | configInvalid path _ => "Failed to parse " ++ path
  | classUnreadable path _ => "failed to read " ++ path
  | classInvalid path _ => "failed to parse " ++ path
  | noReadableClass path count first =>
    "no readable class files under " ++ path ++ " (" ++ toString count ++ " failed, first: " ++
      first ++ ")"

/-- What went wrong, where that is another matter. -/
def cause? : Failure → Option String
  | badInclude error => some error.message
  | badExclude error => some error.message
  | badIgnore (.badGlob error) => some error.message
  | badSelection error => some error.message
  | directoryUnreadable path error =>
    some (path ++ ": IO error for operation on " ++ path ++ ": " ++ error.message)
  | configUnreadable _ error => some error.message
  | configInvalid _ error => some error.message
  | classUnreadable _ error => some error.message
  | classInvalid _ error => some error.message
  | _ => none

/-- The failure in one line. -/
def message (failure : Failure) : String :=
  String.intercalate ": " (failure.headline :: failure.cause?.toList)

end Failure

end ClassImports
