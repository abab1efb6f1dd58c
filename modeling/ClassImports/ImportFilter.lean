import ClassImports.Glob.Depth
import ClassImports.Glob.Parser

/-!
# Import filters

Globs over dotted names that tell which imports to leave out. The wildcards of these globs match
any octet, so `java.*` covers every name that starts with `java.`.
-/

namespace ClassImports

/-- A filter: the globs of the imports to leave out. -/
structure ImportFilter where
  ignored : List Glob := []

namespace ImportFilter

/-- Why texts make no filter. -/
inductive Error where
  /-- One of them is no glob. -/
  | badGlob (error : Glob.Error)
  /-- They are globs, but one of them nests too deeply. -/
  | tooDeep (error : Glob.DepthError)
  deriving DecidableEq, Repr

/-- The filter that leaves out nothing. -/
def keepAll : ImportFilter := {}

instance : Inhabited ImportFilter := ⟨keepAll⟩

/-- The filter with the given globs. The first text that is no glob is an error; if there is none,
a glob that nests too deeply is. -/
def ofPatterns (patterns : List String) : Except Error ImportFilter := do
  let ignored ← (patterns.mapM fun pattern => Glob.ofText? pattern false).mapError .badGlob
  (Glob.checkDepth ignored).mapError .tooDeep
  return { ignored }

/-- Whether a glob leaves out a name. -/
def ignores (glob : Glob) (name : String) : Bool :=
  glob.covers name && !(glob.isAboutFileName && Glob.leadsUp name)

/-- Whether a filter keeps a name. -/
def retains (filter : ImportFilter) (name : String) : Bool :=
  !filter.ignored.any fun glob => ignores glob name

end ImportFilter

end ClassImports
