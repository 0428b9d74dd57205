import MetaFed.Failure
import MetaFed.Text.Percent

/-!
Identifiers as lists of components. Each component is percent-escaped and the components are
joined with colons; an escaped component holds no colon, so an identifier comes apart in exactly
one way. A record reference names a catalog record by asset type, record id and synthetic prefix.
-/

namespace MetaFed

namespace Guid

def join (parts : List String) : String :=
  String.ofList (Text.joined [':'] (parts.map fun p => Text.Percent.escape p.toList))

def split (guid : String) : List String :=
  let (p, ps) := Text.fields ':' guid.toList
  (p :: ps).map fun q => String.ofList (Text.Percent.unescape q)

inductive Rejection where
  | emptyIdentifier
  | notEntity
  | notRelationship
  | missingComponent
  | foreignHome (home : String)
  | badLevelFlag
  | incompleteEnd
  | unorderedEnds
  deriving DecidableEq, Repr

def Rejection.reason : Rejection → String
  | .emptyIdentifier => "empty identifier"
  | .notEntity => "not an entity identifier"
  | .notRelationship => "not a relationship identifier"
  | .missingComponent => "missing component"
  | .foreignHome home => "belongs to home collection " ++ Text.quoted home
  | .badLevelFlag => "invalid relationship-level flag"
  | .incompleteEnd => "asset_type and record_id must be non-empty"
  | .unorderedEnds => "endpoints are not in canonical order"

def Rejection.cause (guid : String) (r : Rejection) : Cause :=
  .malformedIdentity guid r.reason

/-- The empty text stands for no synthetic prefix. -/
def markOf (s : String) : Option String :=
  if s = "" then none else some s

def markText (m : Option String) : String :=
  m.getD ""

end Guid

/-- A catalog record by asset type and record id, with the synthetic prefix of the entity it
stands for. -/
structure RecordRef where
  assetType : String
  recordId : String
  mark : Option String := none
  complete : assetType ≠ "" ∧ recordId ≠ "" ∧ mark ≠ some ""

namespace RecordRef

variable {a b : RecordRef}

/-- The components of a reference, as they are compared. -/
def key (r : RecordRef) : List String :=
  [r.assetType, r.recordId, Guid.markText r.mark]

/-- The components of a reference, as they are written. -/
def parts (r : RecordRef) : List String :=
  [Guid.markText r.mark, r.assetType, r.recordId]

theorem ext_of_data (h : a.assetType = b.assetType) (h' : a.recordId = b.recordId)
    (h'' : a.mark = b.mark) : a = b := by
  cases a; cases b; simp_all

instance : DecidableEq RecordRef := fun a b =>
  if h : a.assetType = b.assetType ∧ a.recordId = b.recordId ∧ a.mark = b.mark then
    isTrue (ext_of_data h.1 h.2.1 h.2.2)
  else isFalse fun e => h (by simp [e])

def of? (assetType recordId : String) (mark : Option String) : Option RecordRef :=
  let m := mark.bind Guid.markOf
  if h : assetType ≠ "" ∧ recordId ≠ "" ∧ m ≠ some "" then some ⟨assetType, recordId, m, h⟩
  else none

/-- The reference with these components; one without asset type or record id is a fault. -/
def of (assetType recordId : String) (mark : Option String) : Attempt RecordRef :=
  match of? assetType recordId mark with
  | some r => .ok r
  | none => stop .incompleteRecordRef

end RecordRef

end MetaFed
