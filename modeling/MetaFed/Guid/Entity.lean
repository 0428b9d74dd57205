import MetaFed.Guid

/-!
Entity identifiers: `e`, the home collection, the synthetic prefix, the asset type and the record
id. Decoding never fails; it answers an identity or the reason why there is none.
-/

namespace MetaFed

structure EntityId where
  home : String
  assetType : String
  recordId : String
  mark : Option String := none
  deriving DecidableEq, Repr

namespace EntityId

/-- The identity with these components; an empty synthetic prefix counts as none. -/
def of (home assetType recordId : String) (mark : Option String) : EntityId :=
  ⟨home, assetType, recordId, mark.bind Guid.markOf⟩

def parts (e : EntityId) : List String :=
  ["e", e.home, Guid.markText e.mark, e.assetType, e.recordId]

def isComplete (e : EntityId) : Bool :=
  e.home != "" && e.assetType != "" && e.recordId != ""

def guid (e : EntityId) : Attempt String :=
  if e.isComplete then .ok (Guid.join e.parts) else stop .incompleteEntityId

def ref (e : EntityId) : Attempt RecordRef :=
  RecordRef.of e.assetType e.recordId e.mark

/-- The identity an identifier stands for, of the expected home collection where one is given. -/
def decode (guid : String) (expectedHome : Option String) : Except Guid.Rejection EntityId :=
  if guid = "" then .error .emptyIdentifier
  else
    match Text.fields ':' guid.toList, Guid.split guid with
    | (['e'], _), [_, home, mark, assetType, recordId] =>
      if home = "" ∨ assetType = "" ∨ recordId = "" then .error .missingComponent
      else if expectedHome.any (home ≠ ·) then .error (.foreignHome home)
      else .ok ⟨home, assetType, recordId, Guid.markOf mark⟩
    | _, _ => .error .notEntity

end EntityId

end MetaFed
