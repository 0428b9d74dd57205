import MetaFed.Mapping.Table

/-!
Entity mappings kept for look-up in tables of their own: by entity type, by what they own, by asset
type and by synthetic prefix, and their relationship mappings. One loop over the mappings checks
and enters them; only when all are in are the ends of the relationships looked up.
-/

namespace MetaFed

def Assoc.push {α β : Type} [DecidableEq α] (k : α) (v : β) (m : Assoc α (List β)) :
    Assoc α (List β) :=
  put k ((find? k m).getD [] ++ [v]) m

/-- The tables of the mappings entered so far. -/
structure Registry where
  byAbstract : Assoc String EntityMapping := []
  byIdentity : Assoc (String × Option String) EntityMapping := []
  byAsset : Assoc String (List EntityMapping) := []
  byMark : Assoc String (List EntityMapping) := []
  relationships : List RelationshipMapping := []
  deriving Repr

namespace Registry

variable (h : Hierarchy) (g : Registry)

def typeFault? (m : EntityMapping) : Option Misconfiguration :=
  if ¬ (h.find? m.abstractType).any (fun t => t.category = .entity) then
    some (.unknownEntityType m.abstractType)
  else if Assoc.has m.abstractType g.byAbstract then some (.repeatedType m.abstractType)
  else
    match m.classifications.find? (fun c => !h.has c.name),
        m.relationships.find? (fun r => !h.has r.type) with
    | some c, _ => some (.unknownClassification m.abstractType c.name)
    | none, some r => some (.unknownRelationship m.abstractType r.type)
    | none, none => none

def enterType (m : EntityMapping) : Registry :=
  { g with byAbstract := Assoc.put m.abstractType m g.byAbstract }

/-- Enters a mapping that has records in the other tables. -/
def enterOwned (m : EntityMapping) : Registry :=
  { g with
    byIdentity := Assoc.put (m.assetType, m.mark) m g.byIdentity
    byAsset := Assoc.push m.assetType m g.byAsset
    byMark := match m.mark with
      | none => g.byMark
      | some p => Assoc.push p m g.byMark
    relationships := m.relationships.foldl (fun seen k => if k ∈ seen then seen else seen ++ [k])
      g.relationships }

/-- One round of the loop. A sentinel is entered under its entity type only. -/
def enter (m : EntityMapping) : Except Misconfiguration Registry :=
  match g.typeFault? h m with
  | some f => .error f
  | none =>
    if m.isSentinel then .ok (g.enterType m)
    else
      match Assoc.find? (m.assetType, m.mark) g.byIdentity with
      | some n => .error (.sharedIdentity m.abstractType n.abstractType m.identityHead)
      | none => .ok ((g.enterType m).enterOwned m)

def enterAll : Registry → List EntityMapping → Except Misconfiguration Registry
  | g, [] => .ok g
  | g, m :: ms =>
    match g.enter h m with
    | .error f => .error f
    | .ok g => enterAll g ms

def endFault? (r : RelationshipMapping) (e : EndMapping) : Option Misconfiguration :=
  if Assoc.has (e.assetType, e.mark) g.byIdentity then none
  else some (.unmappedEnd r.type e.assetType e.mark)

def fault? (baseType : String) : Option Misconfiguration :=
  if h.has baseType then
    g.relationships.findSome? fun r => g.endFault? r r.one <|> g.endFault? r r.two
  else some (.unknownBaseType baseType)

def build (ms : List EntityMapping) (baseType : String) : Attempt Registry :=
  match enterAll h {} ms with
  | .error f => refuse (.configuration f)
  | .ok g =>
    match g.fault? h baseType with
    | some f => refuse (.configuration f)
    | none => .ok g

def forAbstract (name : String) : Option EntityMapping :=
  Assoc.find? name g.byAbstract

def forAsset (assetType : String) : List EntityMapping :=
  (Assoc.find? assetType g.byAsset).getD []

/-- The mapping that owns an asset type under a synthetic prefix, an empty one counting as none. -/
def forIdentity (assetType : String) (mark : Option String) : Option EntityMapping :=
  Assoc.find? (assetType, mark.filter (· ≠ "")) g.byIdentity

def forMark (mark : String) : List EntityMapping :=
  (Assoc.find? mark g.byMark).getD []

end Registry

end MetaFed
