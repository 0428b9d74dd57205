import MetaFed.Guid.Entity
import MetaFed.Mapping.Entity

/-!
Instances as callers see them: entities with their classifications, proxies that name an entity
only, and relationships between two proxies. An entity is made of one record under one mapping.
-/

namespace MetaFed

structure Classification where
  name : String
  properties : Assoc String Value := []
  deriving Repr

structure EntityProxy where
  guid : String
  type : String
  home : String
  qualifiedName : Option String := none
  deriving DecidableEq, Repr

structure Entity where
  guid : String
  type : String
  home : String
  properties : Assoc String Value := []
  classifications : List Classification := []
  createdOn : Option Moment := none
  createdBy : Option String := none
  modifiedOn : Option Moment := none
  modifiedBy : Option String := none
  deriving Repr

structure Relationship where
  guid : String
  type : String
  home : String
  one : EntityProxy
  two : EntityProxy
  properties : Assoc String Value := []
  deriving Repr

/-- Entities around a starting one, and the relationships that lead to them. -/
structure Neighborhood where
  entities : List Entity := []
  relationships : List Relationship := []
  deriving Repr

def EntityMapping.identity (m : EntityMapping) (home : String) (r : Reference) : EntityId :=
  EntityId.of home r.type r.id m.mark

namespace EntityProxy

def ofReference (home : String) (m : EntityMapping) (r : Reference) : Attempt EntityProxy := do
  .ok ⟨← (m.identity home r).guid, m.abstractType, home, none⟩

/-- The entity of a record, with its qualified name where it has one. -/
def ofRecord (home : String) (m : EntityMapping) (r : Record) : Attempt EntityProxy := do
  let name := if m.hasQualifiedName then r.qualifiedName none m.mark else none
  .ok ⟨← (m.identity home r.ref).guid, m.abstractType, home, name⟩

end EntityProxy

namespace Entity

def classificationsOf (r : Record) (cs : List ClassificationMapping) :
    Attempt (List Classification) :=
  (cs.filter (·.applies r)).mapM fun c => do .ok ⟨c.name, ← c.values r⟩

def ofRecord (home : String) (m : EntityMapping) (r : Record) : Attempt Entity := do
  let properties ← r.mapped m.simple m.complex m.mark
  let classifications ← classificationsOf r m.classifications
  let guid ← (m.identity home r.ref).guid
  .ok { guid, type := m.abstractType, home, properties, classifications,
        createdOn := r.createdOn, createdBy := r.createdBy,
        modifiedOn := r.modifiedOn, modifiedBy := r.modifiedBy }

/-- The entity of a record; none if a property it has to have is without value. -/
def ofRecord? (home : String) (m : EntityMapping) (r : Record) : Attempt (Option Entity) :=
  match ofRecord home m r with
  | .ok e => .ok (some e)
  | .error (.fault (.missingValue _)) => .ok none
  | .error f => .error f

/-- The qualified name, where the entity has one that is a text. -/
def qualifiedName (e : Entity) : Option String :=
  match Assoc.find? qualifiedNameProperty e.properties with
  | some (.text s) => some s
  | _ => none

def classification (e : Entity) (name : String) : Option Classification :=
  e.classifications.find? fun c => c.name == name

def toProxy (e : Entity) : EntityProxy :=
  ⟨e.guid, e.type, e.home, e.qualifiedName⟩

end Entity

/-- The end opposite to the one with an identifier. -/
def Relationship.otherEnd (r : Relationship) (guid : String) : Option EntityProxy :=
  if r.one.guid = guid then some r.two
  else if r.two.guid = guid then some r.one
  else none

end MetaFed
