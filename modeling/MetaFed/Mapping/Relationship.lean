import MetaFed.Mapping.Property

/-!
How relationships are recovered from the catalog. A record may hold references to the other end;
one record may play both ends, told apart by their synthetic prefixes; or a record of a type of
its own stands for the relationship and refers to both ends.
-/

namespace MetaFed

inductive RelationshipKind where
  | reference
  | self
  | level
  deriving DecidableEq, Repr

inductive End where
  | one
  | two
  deriving DecidableEq, Repr

/-- The records that play an end. `navigation` is the property that leads on from such a record,
or to it from the record that stands for the relationship; `link` is the property that lists the
records standing for relationships. -/
structure EndMapping where
  assetType : String
  mark : Option String := none
  navigation : Option String := none
  link : Option String := none
  deriving DecidableEq, Repr

structure RelationshipMapping where
  type : String
  kind : RelationshipKind
  one : EndMapping
  two : EndMapping
  levelType : Option String := none
  properties : List SimpleProperty := []
  deriving DecidableEq, Repr

/-- Neither absent nor empty. -/
def isGiven (s : Option String) : Bool :=
  s.any (· ≠ "")

namespace EndMapping

def isPlayedBy (e : EndMapping) (assetType : String) (mark : Option String) : Bool :=
  e.assetType == assetType && e.mark == mark.filter (· ≠ "")

/-- The navigation property, empty where there is none. -/
def navigationName (e : EndMapping) : String :=
  e.navigation.getD ""

end EndMapping

namespace RelationshipMapping

def fault? (m : RelationshipMapping) : Option Misconfiguration :=
  match m.kind with
  | .reference =>
    if ¬ isGiven m.one.navigation then some (.endWithoutProperty m.type)
    else if m.properties ≠ [] then some (.referenceProperties m.type)
    else none
  | .self =>
    if m.one.assetType ≠ m.two.assetType then some (.selfOfTwoTypes m.type)
    else if m.one.mark = m.two.mark then some (.selfOfOnePrefix m.type)
    else none
  | .level =>
    if ¬ isGiven m.levelType then some (.missingLevelType m.type)
    else if ¬ (isGiven m.one.navigation ∧ isGiven m.two.navigation) then
      some (.levelWithoutProperty m.type)
    else none

def checked (m : RelationshipMapping) : Attempt RelationshipMapping :=
  match m.fault? with
  | some f => refuse (.configuration f)
  | none => .ok m

/-- Records of their own stand for the relationships. -/
def isLevel (m : RelationshipMapping) : Bool :=
  m.kind = .level

def atEnd (m : RelationshipMapping) : End → EndMapping
  | .one => m.one
  | .two => m.two

def endsFor (m : RelationshipMapping) (assetType : String) (mark : Option String) : List End :=
  [End.one, End.two].filter fun e => (m.atEnd e).isPlayedBy assetType mark

/-- The mapping links records of two asset types, in either direction. -/
def connects (m : RelationshipMapping) (a b : String) : Bool :=
  if m.isLevel then a == b && some b == m.levelType
  else (m.one.assetType == a && m.two.assetType == b) ||
    (m.one.assetType == b && m.two.assetType == a)

/-- The asset type whose records a search for the relationships goes through. -/
def searchAssetType (m : RelationshipMapping) : String :=
  (m.levelType.filter (· ≠ "")).getD m.one.assetType

/-- Properties read from a record that stands for a relationship. -/
def levelProperties (m : RelationshipMapping) : List String :=
  [m.one.navigation, m.two.navigation].filterMap (·.filter (· ≠ ""))
    ++ m.properties.map SimpleProperty.backend

def backendFor (m : RelationshipMapping) (abstract : String) : Option String :=
  (m.properties.find? fun p => p.abstract == abstract).map SimpleProperty.backend

end RelationshipMapping

end MetaFed
