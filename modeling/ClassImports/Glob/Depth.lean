import ClassImports.Glob.Expression
import ClassImports.Glob.Form

/-!
# How deeply globs nest

The expression of a glob is a tree: what stands side by side, the branches of a choice, what is
repeated, what stands in parentheses and what stands in square brackets each lie one level below
the whole. The depth of that tree is limited. Globs that are decided by their characters need no
expression, so the limit is not about them; of the others, those that end in an extension are
looked at before the rest.

An engine that compiles expressions bounds the size of what they compile to as well. That limit is
not modelled: here an expression may be as long as one likes.
-/

namespace ClassImports.Glob

/-- The deepest expression that can be used. -/
def depthLimit : Nat := 250

/-- Why globs cannot be used together: one of them nests too deeply. -/
inductive DepthError where
  /-- A glob that ends in an extension, by its expression. -/
  | ending (expression : String)
  /-- Another glob, by its place among those, counted from zero. -/
  | general (place : Nat)
  deriving DecidableEq, Repr

/-- The error in words. -/
def DepthError.message : DepthError → String
  | ending expression => "error parsing glob '" ++ expression ++ "': error parsing pattern 0"
  | general place => "error parsing pattern " ++ toString place

/-! ## Depth -/

/-- What tokens take up in an expression: the number of parts side by side, and the depth of the
deepest of them. -/
structure Extent where
  parts : Nat
  depth : Nat
  deriving DecidableEq, Repr

namespace Extent

/-- Two extents side by side. -/
def beside (a b : Extent) : Extent where
  parts := a.parts + b.parts
  depth := max a.depth b.depth

/-- The depth as one part: several parts lie a level below the whole. -/
def whole (extent : Extent) : Nat :=
  if extent.parts ≤ 1 then extent.depth else extent.depth + 1

/-- The extent of a choice between branches with the given depths: in parentheses, and a level
deeper if there are several. -/
def choice (depths : List Nat) : Extent :=
  if depths.isEmpty then ⟨0, 0⟩
  else ⟨1, Extent.whole ⟨depths.length, depths.foldl max 0⟩ + 1⟩

end Extent

/-- The number of parts of a range of characters: each octet is one, but the range between two
octets is one together with them. -/
def rangeParts (range : Char × Char) : Nat :=
  let first := (Utf8.encodeChar range.1).length
  if range.1 = range.2 then first else first + (Utf8.encodeChar range.2).length - 1

/-- The depth of any one octet. -/
def wildDepth (stopsAtSlash : Bool) : Nat :=
  if stopsAtSlash then 1 else 0

mutual

/-- The extent of a token. -/
def Token.extent (stopsAtSlash : Bool) : Token → Extent
  | .literal c => ⟨(Utf8.encodeChar c).length, 0⟩
  | .any => ⟨1, wildDepth stopsAtSlash⟩
  | .star => ⟨1, wildDepth stopsAtSlash + 1⟩
  | .deepStart => ⟨1, 4⟩
  | .deepEnd => ⟨2, 1⟩
  | .deepMiddle => ⟨1, 4⟩
  | .set _ ranges => ⟨1, Extent.whole ⟨ranges.foldl (fun parts range => parts + rangeParts range) 0, 0⟩ + 1⟩
  | .choice branches => Extent.choice (branchDepths stopsAtSlash branches)

/-- The extent of tokens, one after the other. -/
def tokensExtent (stopsAtSlash : Bool) : List Token → Extent
  | [] => ⟨0, 0⟩
  | token :: tokens => (token.extent stopsAtSlash).beside (tokensExtent stopsAtSlash tokens)

/-- The depths of the branches of a choice that say anything. -/
def branchDepths (stopsAtSlash : Bool) : List (List Token) → List Nat
  | [] => []
  | branch :: branches =>
    let here := tokensExtent stopsAtSlash branch
    let others := branchDepths stopsAtSlash branches
    if here.parts = 0 then others else here.whole :: others

end

/-- The depth of a glob's expression, in which its tokens stand between two anchors. -/
def depth (glob : Glob) : Nat :=
  (tokensExtent glob.stopsAtSlash glob.tokens).depth + 1

/-- Whether a glob nests too deeply. -/
def isTooDeep (glob : Glob) : Bool :=
  depthLimit < glob.depth

/-- Tells whether globs can be used together. -/
def checkDepth (globs : List Glob) : Except DepthError Unit :=
  match (globs.filter fun glob => glob.form == .ending).find? isTooDeep with
  | some glob => .error (.ending glob.expression)
  | none =>
    match (globs.filter fun glob => glob.form == .general).findIdx? isTooDeep with
    | some place => .error (.general place)
    | none => .ok ()

end ClassImports.Glob
