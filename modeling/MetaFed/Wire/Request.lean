import MetaFed.Request
import MetaFed.Wire

/-!
Requests as messages. A group of conditions is given condition by condition, or as the values that
some properties are to have.
-/

namespace MetaFed

open Wire

def Criteria.read (v : Value) : Attempt Criteria :=
  Wire.word "MatchCriteria" (fun w => Assoc.find? w Criteria.words) (textOr "all" (field v "match"))

def PropertyOperator.read (w : String) : Attempt PropertyOperator :=
  Wire.word "PropertyOperator" PropertyOperator.ofWord? w

namespace PropertyGroup

/-- Reads a group in which groups are nested less than `n` deep. -/
def readWithin : Nat → Value → Attempt PropertyGroup
  | 0, _ => stop .illFormed
  | n + 1, v => do
    let criteria ← Criteria.read v
    if hasField v "values" then ofValues (entriesAt v "values") criteria
    else
      let members ← (itemsAt v "conditions").mapM fun c => do
        let operator ← PropertyOperator.read (textOr "eq" (field c "operator"))
        match field c "nested" with
        | .null =>
          let leaf ← PropertyCondition.of (textAt c "property") operator (field c "value")
          .ok (Criterion.leaf leaf)
        | w =>
          let g ← readWithin n w
          .ok g.toCriterion
      .ok ⟨members, criteria⟩

def read (v : Value) : Attempt PropertyGroup :=
  readWithin (depth v + 1) v

def read? (v : Value) : Attempt (Option PropertyGroup) :=
  if v.isNull then .ok none else (read v).map some

end PropertyGroup

mutual

def Criterion.toValue : Criterion → Value
  | .leaf c => .dict [("property", .text c.property), ("operator", .text c.operator.word),
      ("value", c.value)]
  | .group k ms => .dict [("nested", .dict [("match", .text k.word),
      ("conditions", .list (Criterion.toValues ms))])]

def Criterion.toValues : List Criterion → List Value
  | [] => []
  | c :: cs => c.toValue :: Criterion.toValues cs

end

def PropertyGroup.toValue (g : PropertyGroup) : Value :=
  .dict [("match", .text g.criteria.word), ("conditions", .list (Criterion.toValues g.members))]

def ClassificationGroup.read? (v : Value) : Attempt (Option ClassificationGroup) :=
  if v.isNull then .ok none
  else do
    let criteria ← Criteria.read v
    if hasField v "names" then
      .ok (some ⟨(textsAt v "names").map fun n => ⟨n, none⟩, criteria⟩)
    else
      let members ← (itemsAt v "conditions").mapM fun c => do
        .ok (ClassificationCondition.mk (textAt c "name")
          (← PropertyGroup.read? (field c "properties")))
      .ok (some ⟨members, criteria⟩)

/-- Reads a window; all results are in the one that is left out. -/
def Window.read (v : Value) : Attempt Window :=
  if v.isNull then .ok {}
  else do
    let order ← match optTextAt v "sequencing_order" with
      | some w => (word "SequencingOrder" Sequencing.ofWord? w).map some
      | none => .ok none
    Window.of (← intAt v "start") (← intAt v "page_size") (optTextAt v "sequencing_property") order

def EntitySearch.read (v : Value) : Attempt EntitySearch := do
  .ok { type := optTextAt v "type_name", within := textsAt v "subtype_names",
        properties := ← PropertyGroup.read? (field v "properties"),
        classifications := ← ClassificationGroup.read? (field v "classifications"),
        window := ← Window.read (field v "paging"),
        historical := !(field v "as_of_time").isNull }

def RelationshipSearch.read (v : Value) : Attempt RelationshipSearch := do
  .ok { type := optTextAt v "relationship_type",
        properties := ← PropertyGroup.read? (field v "properties"),
        window := ← Window.read (field v "paging"),
        historical := !(field v "as_of_time").isNull }

end MetaFed
