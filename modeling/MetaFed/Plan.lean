import MetaFed.Mapping.Table
import MetaFed.Native.Search
import MetaFed.Plan.Folding

/-!
Search plans: the native searches that answer a request, run one after another, and the window to
apply to all that they find. A planner knows the mapping table, the qualified names that belong to
other repositories, and the properties that a free-text search leaves out.
-/

namespace MetaFed

/-- Native searches and a window on their results; a page size of zero keeps all results. -/
structure SearchPlan where
  searches : List NativeSearch := []
  pageSize : Nat := 0
  skip : Nat := 0
  deriving Repr

/-- What plans are made with. `exclusions` lists, for releases of the catalog, properties that a
free-text search leaves out. -/
structure Planner where
  table : MappingTable
  foreignMark : Option String
  exclusions : Assoc String (List String)
  deriving Repr

namespace Planner

/-- What the qualified names of other repositories start with. -/
def standardForeignMark : String := "extern:"

def standardExclusions : Assoc String (List String) :=
  [("11.7.0.2", ["long_description"])]

variable (p : Planner)

def isForeign (name : String) : Bool :=
  match p.foreignMark with
  | some m => m != "" && m.toList.isPrefixOf name.toList
  | none => false

def checkPresent (historical : Bool) : Attempt Unit :=
  if historical then refuse (.functionNotSupported .history) else .ok ()

def checkPattern (c : PropertyCondition) : Attempt Unit :=
  match c.operator, c.value with
  | .like, .text v =>
    if (SearchPattern.classify v).isLiteral then .ok ()
    else refuse (.functionNotSupported (.requestPattern c.property v))
  | _, _ => .ok ()

def checkPatterns : List PropertyCondition → Attempt Unit
  | [] => .ok ()
  | c :: cs => do
    checkPattern c
    checkPatterns cs

/-- Requests that have no plan whatever their type are refused. -/
def checkRequest (historical : Bool) (properties : Option PropertyGroup) : Attempt Unit := do
  checkPresent historical
  match properties with
  | some g => checkPatterns g.leaves
  | none => .ok ()

def checkText (value : String) : Attempt Unit :=
  if (SearchPattern.classify value).isLiteral then .ok ()
  else refuse (.functionNotSupported (.textPattern value))

/-- A condition that one of the catalog properties matches a pattern. -/
def anyMatches (paths : List String) (pattern : String) : Attempt Folded := do
  let cs ← paths.mapM fun path => PropertyOperator.compile path .like (.text pattern)
  .ok (Folded.combine .any (cs.map fun c => .node (.leaf c)))

end Planner

end MetaFed
