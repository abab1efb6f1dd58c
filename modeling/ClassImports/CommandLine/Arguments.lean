import ClassImports.Settings

/-!
# Command-line arguments

The arguments are a command, what it is about, and options. Options may come before and after the
command; an option that was given after it counts instead of all those of its kind before it. An
option may be given once on either side, the three kinds of patterns any number of times. `--` ends
the options. Whatever does not fit is a usage error.
-/

namespace ClassImports.CommandLine

/-- What can be asked for. -/
inductive Verb where
  | imports
  | summary
  | pool
  deriving DecidableEq, Repr

/-- The command with a name. -/
def Verb.ofName? (name : String) : Option Verb :=
  match name with
  | "imports" => some .imports
  | "summary" => some .summary
  | "pool" => some .pool
  | _ => none

/-- The path that a command is about if none is given. -/
def Verb.defaultPath? : Verb → Option String
  | imports => some "."
  | summary => some "."
  | pool => none

/-- A command with all its settings. -/
structure Invocation where
  verb : Verb
  path : String
  format : Format
  settings : CommandSettings
  deriving DecidableEq, Repr

/-- What the arguments ask for. -/
inductive Request where
  | run (invocation : Invocation)
  | version
  | help
  deriving DecidableEq, Repr

/-- The options of one side of the command. -/
structure Options where
  format : Option Format := none
  config : Option String := none
  includes : List String := []
  excludes : List String := []
  ignores : List String := []
  keepSelf : Bool := false
  deriving DecidableEq, Repr

namespace Options

/-- The format with a name. -/
def format? (name : String) : Option Format :=
  match name with
  | "text" => some .text
  | "json" => some .json
  | "compact" => some .compact
  | _ => none

/-- Whether an option takes a value. -/
def takesValue (name : String) : Bool :=
  ["format", "include", "exclude", "ignore", "config"].contains name

/-- Gives an option a value; none if it has one already or cannot have this one. -/
def set? (options : Options) (name value : String) : Option Options :=
  match name with
  | "format" =>
    if options.format.isSome then none
    else (format? value).map fun format => { options with format := some format }
  | "config" =>
    if options.config.isSome then none else some { options with config := some value }
  | "include" => some { options with includes := options.includes ++ [value] }
  | "exclude" => some { options with excludes := options.excludes ++ [value] }
  | "ignore" => some { options with ignores := options.ignores ++ [value] }
  | _ => none

/-- Sets the option without a value; none if it is set already. -/
def setKeepSelf? (options : Options) : Option Options :=
  if options.keepSelf then none else some { options with keepSelf := true }

/-- The options of both sides of the command. -/
def merge (after before : Options) : Options where
  format := after.format.or before.format
  config := after.config.or before.config
  includes := if after.includes.isEmpty then before.includes else after.includes
  excludes := if after.excludes.isEmpty then before.excludes else after.excludes
  ignores := if after.ignores.isEmpty then before.ignores else after.ignores
  keepSelf := after.keepSelf || before.keepSelf

/-- The options as settings. -/
def toSettings (options : Options) : CommandSettings where
  config := options.config
  includes := options.includes
  excludes := options.excludes
  ignores := options.ignores
  keepSelf := options.keepSelf

end Options

/-! ## Reading -/

/-- The form of an argument. -/
inductive Form where
  /-- `--name` or `--name=value`. -/
  | long (name : String) (value : Option String)
  /-- `-x…`, by its first letter. -/
  | short (letter : Char)
  /-- `--`. -/
  | stop
  | plain
  deriving DecidableEq, Repr

/-- The form of an argument. -/
def formOf (argument : String) : Form :=
  match argument.toList with
  | ['-', '-'] => .stop
  | '-' :: '-' :: text =>
    let name := String.ofList (text.takeWhile (· ≠ '='))
    match text.dropWhile (· ≠ '=') with
    | _ :: value => .long name (some (String.ofList value))
    | [] => .long name none
  | '-' :: letter :: _ => .short letter
  | _ => .plain

/-- What an option without a value of its own leads to. -/
inductive Step where
  | options (options : Options)
  | request (request : Request)
  | usage

/-- After an option that takes no value; `early` tells that the command is still to come. -/
def flag (early : Bool) (options : Options) (name : String) : Step :=
  match name with
  | "keep-self" =>
    match options.setKeepSelf? with
    | some options => .options options
    | none => .usage
  | "help" => .request .help
  | "version" => if early then .request .version else .usage
  | _ => .usage

/-- After a letter; `early` tells that the command is still to come. -/
def letter (early : Bool) (c : Char) : Step :=
  if c = 'h' then .request .help
  else if c = 'V' && early then .request .version
  else .usage

/-- The request for a command, unless its path is missing. -/
def finish (verb : Verb) (before after : Options) (path : Option String) : Option Request :=
  (path.or verb.defaultPath?).map fun path =>
    let options := after.merge before
    .run { verb, path, format := options.format.getD .text, settings := options.toSettings }

/-- Reads what follows `--`: the path alone. -/
def readPlain (verb : Verb) (before after : Options) (path : Option String) :
    List String → Option Request
  | [] => finish verb before after path
  | [argument] => if path.isSome then none else finish verb before after (some argument)
  | _ :: _ :: _ => none

/-- Reads the arguments after the command. -/
def readAfter (verb : Verb) (before after : Options) (path : Option String) :
    List String → Option Request
  | [] => finish verb before after path
  | argument :: rest =>
    match formOf argument with
    | .plain => if path.isSome then none else readAfter verb before after (some argument) rest
    | .stop => readPlain verb before after path rest
    | .short c =>
      match letter false c with
      | .request request => some request
      | _ => none
    | .long name (some value) => do readAfter verb before (← after.set? name value) path rest
    | .long name none =>
      if Options.takesValue name then
        match rest with
        | value :: rest =>
          if formOf value = .plain then do
            readAfter verb before (← after.set? name value) path rest
          else none
        | [] => none
      else
        match flag false after name with
        | .options after => readAfter verb before after path rest
        | .request request => some request
        | .usage => none

/-- What `help` asks for, by the arguments after it: the name of one command may follow, where
`help` counts as one. -/
def readHelp : List String → Option Request
  | [] => some .help
  | [name] => if name = "help" || (Verb.ofName? name).isSome then some .help else none
  | _ :: _ :: _ => none

/-- Reads the arguments up to the command. -/
def readBefore (before : Options) : List String → Option Request
  | [] => none
  | argument :: rest =>
    match formOf argument with
    | .plain =>
      match Verb.ofName? argument with
      | some verb => readAfter verb before {} none rest
      | none => if argument = "help" then readHelp rest else none
    | .stop => none
    | .short c =>
      match letter true c with
      | .request request => some request
      | _ => none
    | .long name (some value) => do readBefore (← before.set? name value) rest
    | .long name none =>
      if Options.takesValue name then
        match rest with
        | value :: rest =>
          if formOf value = .plain then do readBefore (← before.set? name value) rest else none
        | [] => none
      else
        match flag true before name with
        | .options before => readBefore before rest
        | .request request => some request
        | .usage => none

/-- What the arguments ask for; none is a usage error. -/
def Request.ofArguments? (arguments : List String) : Option Request :=
  readBefore {} arguments

end ClassImports.CommandLine
