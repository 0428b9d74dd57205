import MetaFed.Mapping.Table
import MetaFed.Plan
import MetaFed.Wire.Request

/-!
Native conditions, searches and plans as messages.
-/

namespace MetaFed

open Wire

def NativeOperator.read (w : String) : Attempt NativeOperator :=
  Wire.word "NativeOperator" NativeOperator.ofWord? w

namespace Node

/-- Reads a condition in which groups are nested less than `n` deep. -/
def readWithin : Nat → Value → Attempt Node
  | 0, _ => stop .illFormed
  | n + 1, v => do
    if hasField v "conditions" then
      let ms ← (itemsAt v "conditions").mapM (readWithin n)
      .ok (.group ms (textAt v "operator" == "or") (flagAt v "negated"))
    else
      let operator ← NativeOperator.read (textAt v "operator")
      .ok (.leaf ⟨textAt v "property", operator, field v "value", flagAt v "negated"⟩)

def read (v : Value) : Attempt Node :=
  readWithin (depth v + 1) v

end Node

def ConditionSet.read (v : Value) : Attempt ConditionSet :=
  if v.isNull then .ok {}
  else do
    match ← Node.read v with
    | .group ms matchAny negated => .ok ⟨ms, matchAny, negated⟩
    | n => .ok { members := [n] }

namespace Folded

def read (v : Value) : Attempt Folded :=
  match v with
  | .bool b => .ok (.const b)
  | v => (Node.read v).map .node

def toValue : Folded → Value
  | .const b => .bool b
  | .node n => n.toValue

end Folded

def SortKey.read (v : Value) : SortKey :=
  ⟨textAt v "property", flagOr true (field v "ascending")⟩

def NativeSearch.read (t : MappingTable) (v : Value) : Attempt NativeSearch := do
  let conditions ← ConditionSet.read (field v "where")
  let residual ← PropertyGroup.read? (field v "residual")
  .ok { types := textsAt v "types", conditions, properties := textsAt v "properties",
        start := natAt v "begin", pageSize := natAt v "pageSize",
        sorts := (itemsAt v "sorts").map SortKey.read,
        mapping := (optTextAt v "mapping").bind t.forAbstract,
        relationshipMapping :=
          if (field v "relationship_mapping").isNull then none
          else t.relationships[natAt v "relationship_mapping"]?,
        residual }

namespace SearchPlan

/-- A search of a plan, with what reads its hits. -/
def searchToValue (s : NativeSearch) : Value :=
  match s.toValue with
  | .dict es =>
    .dict (es ++ [("mapping", .ofText? (s.mapping.map EntityMapping.abstractType)),
      ("relationship_mapping", .ofText? (s.relationshipMapping.map RelationshipMapping.type)),
      ("residual", optional PropertyGroup.toValue s.residual)])
  | v => v

def toValue (p : SearchPlan) : Value :=
  .dict [("page_size", .int p.pageSize), ("skip", .int p.skip),
    ("searches", list searchToValue p.searches)]

end SearchPlan

end MetaFed
