import MetaFed.Mapping.Entity
import MetaFed.Request

/-!
Searches as the catalog runs them: the asset types to go through, conditions on their records, the
properties to return, sort keys and a window. A search also carries what is needed to read its
hits, which the catalog does not see.
-/

namespace MetaFed

structure SortKey where
  property : String
  ascending : Bool := true
  deriving DecidableEq, Repr

/-- A search; a page size of zero asks for all hits. `mapping` or `relationshipMapping` reads the
hits, and `residual` is checked on what is read. -/
structure NativeSearch where
  types : List String
  conditions : ConditionSet := {}
  properties : List String := []
  start : Nat := 0
  pageSize : Nat := 0
  sorts : List SortKey := []
  mapping : Option EntityMapping := none
  relationshipMapping : Option RelationshipMapping := none
  residual : Option PropertyGroup := none
  deriving Repr

/-- Properties that a catalog reports to hold texts, by asset type. -/
abbrev StringProperties := Assoc String (List String)

namespace SortKey

def toValue (k : SortKey) : Value :=
  .dict [("property", .text k.property), ("ascending", .bool k.ascending)]

def byId : SortKey := ⟨Record.idProperty, true⟩

end SortKey

namespace NativeSearch

def toValue (s : NativeSearch) : Value :=
  .dict ([("types", Value.texts s.types), ("properties", Value.texts s.properties),
    ("pageSize", .int s.pageSize), ("begin", .int s.start)]
    ++ (if s.conditions.members.isEmpty then [] else [("where", s.conditions.toNode.toValue)])
    ++ (if s.sorts.isEmpty then [] else [("sorts", .list (s.sorts.map SortKey.toValue))]))

end NativeSearch

end MetaFed
