import ClassImports.Glob.FileName

/-!
# Forms of globs

Many globs need no matching of wildcards: they compare a name with the characters of the glob, at
its start, at its end or as a whole. Of the others, those that end in an extension are told apart
from the rest, because a name with another extension is out of the question for them.
-/

namespace ClassImports.Glob

/-- How a glob is decided. -/
inductive Form where
  /-- By its characters alone. -/
  | plain
  /-- By its expression, for names with the extension in which it ends. -/
  | ending
  /-- By its expression. -/
  | general
  deriving DecidableEq, Repr

/-- Whether tokens are literal characters. -/
def areAllLiterals (tokens : List Token) : Bool :=
  areLiterals (fun _ => true) tokens

/-- Whether the tokens compare the end of a name, or all of it, with characters: a star that stops
at slashes is no such thing, and neither is a star with nothing or a lone slash after it. -/
def isPlainEnding (stopsAtSlash : Bool) (tokens : List Token) : Bool :=
  match dropDeepStart tokens with
  | [] => false
  | [.star] => false
  | [.star, .literal '/'] => false
  | .star :: ending => !stopsAtSlash && areAllLiterals ending
  | ending => areAllLiterals ending

/-- Whether the tokens compare the start of a name with characters. -/
def isPlainStart (stopsAtSlash : Bool) (tokens : List Token) : Bool :=
  match tokens.reverse with
  | .deepEnd :: start => areAllLiterals start
  | .star :: start => !stopsAtSlash && !start.isEmpty && areAllLiterals start
  | _ => false

/-- Whether the tokens ask for an extension at any depth. -/
def isDeepExtension (tokens : List Token) : Bool :=
  match tokens with
  | .deepStart :: rest => isExtension rest
  | _ => false

/-- The form of a glob. -/
def form (glob : Glob) : Form :=
  if isPlainEnding glob.stopsAtSlash glob.tokens || isPlainStart glob.stopsAtSlash glob.tokens ||
      isDeepExtension glob.tokens then .plain
  else if endsInExtension glob.tokens then .ending
  else .general

end ClassImports.Glob
