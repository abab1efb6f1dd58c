import ClassImports.Glob.Basic
import ClassImports.Text.Utf8

/-!
# What a glob covers

A glob is matched against the octets of a name. The positions of a name are the places before its
first octet, between two octets and after its last one; a list of truth values tells which of them
can be reached. Each token turns the positions where it may start into those where it may end, and
a glob covers a name if it leads from the first position to the last one.

Octets, not characters, are what `?` and a set match: each of them matches one octet of a
character that has several. A range between characters with several octets runs from the last
octet of the first to the first octet of the last; the octets around it count singly.
-/

namespace ClassImports.Glob

/-- The positions reached after one octet that passes the test. -/
def step (test : UInt8 → Bool) (name : Bytes) (reached : List Bool) : List Bool :=
  false :: List.zipWith (fun octet here => here && test octet) name reached

/-- The positions reached after any number of octets that pass the test. -/
def spread (test : UInt8 → Bool) (name : Bytes) (reached : List Bool) : List Bool :=
  let start := reached.headD false
  ((name.zip reached.tail).foldl
    (fun before next => (next.2 || (before.headD false && test next.1)) :: before)
    [start]).reverse

/-- The positions reached in either of two ways. -/
def either (a b : List Bool) : List Bool :=
  List.zipWith or a b

/-- The test of a wildcard. -/
def wild (stopsAtSlash : Bool) (octet : UInt8) : Bool :=
  !(stopsAtSlash && octet == 0x2F)

/-- The test of a slash. -/
def slash (octet : UInt8) : Bool :=
  octet == 0x2F

/-- Whether an octet belongs to a range of characters. -/
def inRange (range : Char × Char) (octet : UInt8) : Bool :=
  let first := Utf8.encodeChar range.1
  if range.1 = range.2 then first.contains octet
  else
    let last := Utf8.encodeChar range.2
    first.contains octet || last.contains octet ||
      (first.getLastD 0 ≤ octet && octet ≤ last.headD 0)

/-- Whether an octet belongs to a set. -/
def inSet (negated : Bool) (ranges : List (Char × Char)) (octet : UInt8) : Bool :=
  negated != ranges.any fun range => inRange range octet

mutual

/-- Whether a token matches nothing but the empty text: a choice without a branch that does. -/
def Token.isBlank : Token → Bool
  | .choice branches => areBlank branches
  | _ => false

/-- Whether all tokens of a branch are blank. -/
def isBlank : List Token → Bool
  | [] => true
  | token :: tokens => token.isBlank && isBlank tokens

/-- Whether all branches are blank. -/
def areBlank : List (List Token) → Bool
  | [] => true
  | branch :: branches => isBlank branch && areBlank branches

end

mutual

/-- The positions that a token leads to. -/
def Token.advance (stopsAtSlash : Bool) (name : Bytes) (reached : List Bool) :
    Token → List Bool
  | .literal c =>
    (Utf8.encodeChar c).foldl (fun reached octet => step (· == octet) name reached) reached
  | .any => step (wild stopsAtSlash) name reached
  | .star => spread (wild stopsAtSlash) name reached
  | .deepStart =>
    either reached (step slash name (spread (wild false) name reached))
  | .deepEnd => spread (wild false) name (step slash name reached)
  | .deepMiddle =>
    let entered := step slash name reached
    either entered (step slash name (spread (wild false) name entered))
  | .set negated ranges => step (inSet negated ranges) name reached
  | .choice branches => (advanceAny stopsAtSlash name reached branches).getD reached

/-- The positions that tokens lead to, one after the other. -/
def advance (stopsAtSlash : Bool) (name : Bytes) (reached : List Bool) : List Token → List Bool
  | [] => reached
  | token :: tokens =>
    advance stopsAtSlash name (token.advance stopsAtSlash name reached) tokens

/-- The positions that one of the branches leads to; blank branches do not count, and without any
others there are none. -/
def advanceAny (stopsAtSlash : Bool) (name : Bytes) (reached : List Bool) :
    List (List Token) → Option (List Bool)
  | [] => none
  | branch :: branches =>
    let others := advanceAny stopsAtSlash name reached branches
    if isBlank branch then others
    else
      let here := advance stopsAtSlash name reached branch
      some (match others with
        | some there => either here there
        | none => here)

end

/-- Whether a glob is the lone double star, which covers everything. -/
def coversAll (glob : Glob) : Bool :=
  match glob.tokens with
  | [.deepStart] => true
  | _ => false

/-- Whether a glob covers a name from its first octet to its last one. -/
def covers (glob : Glob) (name : String) : Bool :=
  let octets := Utf8.encode name.toList
  let start := true :: List.replicate octets.length false
  glob.coversAll || (advance glob.stopsAtSlash octets start glob.tokens).getLastD false

end ClassImports.Glob
