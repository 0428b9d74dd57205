import MetaFed.Collection.Lookup
import MetaFed.Collection.Search
import MetaFed.Collection.Types

/-!
The operations of a collection that callers can ask for, by what they answer. Each has a name, runs
in a session of its own and ends with an outcome.
-/

namespace MetaFed

inductive Operation : Type → Type where
  | findEntities (q : EntitySearch) : Operation (List Entity)
  | findByProperty (q : EntitySearch) : Operation (List Entity)
  | findClassified (classification : String) (properties : Option PropertyGroup)
      (q : EntitySearch) : Operation (List Entity)
  | findByText (value : String) (q : EntitySearch) : Operation (List Entity)
  | entity (guid : String) : Operation Entity
  | knownEntity (guid : String) : Operation (Option Entity)
  | relationships (guid : String) (type : Option String) (w : Window) (historical : Bool) :
      Operation (List Relationship)
  | neighborhood (guid : String) (f : NeighborFilter) (historical : Bool) (level : Value) :
      Operation Neighborhood
  | relationship (guid : String) : Operation Relationship
  | knownRelationship (guid : String) : Operation (Option Relationship)
  | findRelationships (q : RelationshipSearch) : Operation (List Relationship)
  | findRelationshipsByText (type : Option String) (value : String) (w : Window)
      (historical : Bool) : Operation (List Relationship)
  | typeDef (name : String) : Operation TypeDef
  | coverage (name : String) : Operation TypeCoverage

def Operation.name {α : Type} : Operation α → String
  | .findEntities _ => "find_entities"
  | .findByProperty _ => "find_entities_by_property"
  | .findClassified .. => "find_entities_by_classification"
  | .findByText .. => "find_entities_by_property_value"
  | .entity _ => "get_entity_detail"
  | .knownEntity _ => "is_entity_known"
  | .relationships .. => "get_relationships_for_entity"
  | .neighborhood .. => "get_entity_neighborhood"
  | .relationship _ => "get_relationship"
  | .knownRelationship _ => "is_relationship_known"
  | .findRelationships _ => "find_relationships_by_property"
  | .findRelationshipsByText .. => "find_relationships_by_property_value"
  | .typeDef _ => "get_type_def_by_name"
  | .coverage _ => "verify_type_def"

namespace Collection

variable (c : Collection) {σ : Type} [Provider σ] (s : σ) {α : Type}

def work : Operation α → Session α
  | .findEntities q => c.findEntities s q
  | .findByProperty q => c.findEntities s q
  | .findClassified name properties q => c.findClassified s name properties q
  | .findByText value q => c.findByText s value q
  | .entity guid => c.entity s guid
  | .knownEntity guid => c.knownEntity s guid
  | .relationships guid type w historical => c.relationshipPage s guid type w historical
  | .neighborhood guid f historical level => c.neighborhood s guid f historical level
  | .relationship guid => c.relationship s guid
  | .knownRelationship guid => c.knownRelationship s guid
  | .findRelationships q => c.findRelationships s q
  | .findRelationshipsByText type value w historical =>
    c.findRelationshipsByText s type value w historical
  | .typeDef name => Session.ofAttempt (c.typeDef name)
  | .coverage name => Session.ofAttempt (c.coverage name)

/-- The outcome of an operation, and what it did at the backend. -/
def answer (o : Operation α) : Attempt (Outcome α) × List Event :=
  c.run o.name (c.work s o)

end Collection

end MetaFed
