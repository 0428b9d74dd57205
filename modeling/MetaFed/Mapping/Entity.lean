import MetaFed.Mapping.Classification
import MetaFed.Mapping.Relationship
import MetaFed.Native.Condition
import MetaFed.Text.Alphanumeric

/-!
The mapping of one abstract entity type to one asset type of the catalog. With a synthetic prefix
the entity stands for a part of the record. A sentinel stands for an abstract supertype that has
no asset type and is never searched itself.
-/

namespace MetaFed

/-- An entity type and how its entities are made of records. `contextPaths` are the paths to the
names of a record's ancestors, the root first; none where the depth varies. -/
structure EntityMapping where
  abstractType : String
  assetType : String
  mark : Option String := none
  simple : List SimpleProperty := []
  complex : List ComplexProperty := []
  classifications : List ClassificationMapping := []
  relationships : List RelationshipMapping := []
  contextPaths : Option (List String) := some []
  typeConditions : List NativeCondition := []
  searchable : Bool := true
  deriving Repr

namespace EntityMapping

def sentinelType : String := "__supertype__"

/-- The mapping has no records. -/
def isSentinel (m : EntityMapping) : Bool :=
  m.assetType == sentinelType

def identityHead (m : EntityMapping) : String :=
  QualifiedName.headOf m.assetType m.mark

def abstractProperties (m : EntityMapping) : List String :=
  m.simple.map SimpleProperty.abstract ++ m.complex.map ComplexProperty.abstract

def simpleFor (m : EntityMapping) (abstract : String) : Option SimpleProperty :=
  m.simple.find? fun p => p.abstract == abstract

def complexFor (m : EntityMapping) (abstract : String) : Option ComplexProperty :=
  m.complex.find? fun p => p.abstract == abstract

def classificationFor (m : EntityMapping) (name : String) : Option ClassificationMapping :=
  m.classifications.find? fun c => c.name == name

def hasQualifiedName (m : EntityMapping) : Bool :=
  (m.complexFor qualifiedNameProperty).any fun p => p.kind = .qualifiedName

/-- The property an end of a relationship is followed through from the mapping's records. -/
def endProperty (m : EntityMapping) (r : RelationshipMapping) (e : EndMapping) : List String :=
  if e.assetType ≠ m.assetType ∨ e.mark ≠ m.mark then []
  else ((if r.isLevel then e.link else e.navigation).filter (· ≠ "")).toList

def projected (m : EntityMapping) : List String :=
  firsts (Record.nameProperty :: m.simple.map SimpleProperty.backend
    ++ (m.complex.filterMap ComplexProperty.backend).filter (· ≠ "")
    ++ m.classifications.flatMap ClassificationMapping.projected
    ++ m.relationships.flatMap fun r => m.endProperty r r.one ++ m.endProperty r r.two)

def fault? (m : EntityMapping) : Option Misconfiguration :=
  let markFault : Option Misconfiguration :=
    match m.mark with
    | none => none
    | some p =>
      if m.isSentinel then some (.sentinelPrefix m.abstractType)
      else if ¬ p.toList.all Text.isAlphanumeric then some (.oddPrefix m.abstractType p)
      else if p ≠ Text.lower p then some (.upperCasePrefix m.abstractType p)
      else none
  match markFault, firstRepeated? [] m.abstractProperties with
  | some f, _ => some f
  | none, some p => some (.repeatedProperty m.abstractType p)
  | none, none => none

/-- The mapping, an empty synthetic prefix counting as none, if nothing is wrong with it. -/
def checked (m : EntityMapping) : Attempt EntityMapping :=
  let m := { m with mark := m.mark.filter (· ≠ "") }
  match m.fault? with
  | some f => refuse (.configuration f)
  | none => .ok m

end EntityMapping

end MetaFed
