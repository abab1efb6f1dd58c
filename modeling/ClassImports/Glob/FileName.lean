import ClassImports.Glob.Basic

/-!
# Globs about file names

Some globs say nothing about a name but how its last component reads or ends: a double star and
a plain name, `*` and an extension, or anything that ends in an extension and is not merely an
ending. A name whose last component is `..` leads upwards and names no file, so these globs do not
cover it.
-/

namespace ClassImports.Glob

/-- The character of a literal token. -/
def Token.char? : Token → Option Char
  | .literal c => some c
  | _ => none

/-- Whether tokens are literal characters that all pass a test. -/
def areLiterals (test : Char → Bool) (tokens : List Token) : Bool :=
  tokens.all fun token => token.char?.any test

/-- The tokens without a double star at their start. -/
def dropDeepStart : List Token → List Token
  | .deepStart :: tokens => tokens
  | tokens => tokens

/-- The tokens without a star at their start. -/
def dropStar : List Token → List Token
  | .star :: tokens => tokens
  | tokens => tokens

/-- A double star and a plain file name. -/
def isPlainFileName : List Token → Bool
  | .deepStart :: token :: tokens => areLiterals (· != '/') (token :: tokens)
  | _ => false

/-- A star, a dot, and an extension. -/
def isExtension (tokens : List Token) : Bool :=
  match dropDeepStart tokens with
  | .star :: .literal '.' :: extension => areLiterals (fun c => c != '.' && c != '/') extension
  | _ => false

/-- Whether the literals at the end of the tokens have a dot with no slash after it. -/
def endsInExtension (tokens : List Token) : Bool :=
  let ending := tokens.reverse.takeWhile fun token => token.char?.any (· != '/')
  ending.any fun token => token.char? == some '.'

/-- Whether the tokens say only how a name ends. -/
def isEnding (tokens : List Token) : Bool :=
  areLiterals (fun _ => true) (dropStar (dropDeepStart tokens))

/-- Whether a glob is about the last component of a name. -/
def isAboutFileName (glob : Glob) : Bool :=
  isPlainFileName glob.tokens || isExtension glob.tokens ||
    (endsInExtension glob.tokens && !isEnding glob.tokens)

/-- Whether the last component of a name is `..`. -/
def leadsUp (name : String) : Bool :=
  (name.toList.reverse.takeWhile (· != '/')) == ['.', '.']

end ClassImports.Glob
