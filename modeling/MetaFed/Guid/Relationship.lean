import MetaFed.Guid
import MetaFed.Sorted

/-!
Relationship identifiers: `r`, the home collection, the relationship type, a flag that tells
whether a record of its own stands for the relationship, and the two ends. The ends are kept in
the order of their components, so a relationship has one identifier whichever end it is seen from.
-/

namespace MetaFed

structure RelationshipId where
  home : String
  type : String
  one : RecordRef
  two : RecordRef
  level : Bool := false
  ordered : ¬ two.key < one.key

namespace RelationshipId

theorem ext_of_data {a b : RelationshipId} (h : a.home = b.home) (ht : a.type = b.type)
    (h₁ : a.one = b.one) (h₂ : a.two = b.two) (hl : a.level = b.level) : a = b := by
  cases a; cases b; simp_all

instance : DecidableEq RelationshipId := fun a b =>
  if h : a.home = b.home ∧ a.type = b.type ∧ a.one = b.one ∧ a.two = b.two ∧ a.level = b.level then
    isTrue (ext_of_data h.1 h.2.1 h.2.2.1 h.2.2.2.1 h.2.2.2.2)
  else isFalse fun e => h (by simp [e])

/-- The identity with these ends, in whichever order they are given. -/
def of (home type : String) (a b : RecordRef) (level : Bool) : RelationshipId :=
  if h : b.key < a.key then ⟨home, type, b, a, level, fun h' => List.lt_asymm h h'⟩
  else ⟨home, type, a, b, level, h⟩

def flagText (level : Bool) : String :=
  if level then "1" else "0"

def parts (r : RelationshipId) : List String :=
  ["r", r.home, r.type, flagText r.level] ++ r.one.parts ++ r.two.parts

def guid (r : RelationshipId) : Attempt String :=
  if r.home = "" ∨ r.type = "" then stop .incompleteLinkId else .ok (Guid.join r.parts)

/-- The identifier with these components; the ends are sorted as they are written. -/
def encode (home type : String) (a b : RecordRef) (level : Bool) : Attempt String :=
  if home = "" ∨ type = "" then stop .incompleteLinkId
  else
    let ends := sortBy (fun x y => ¬ y.key < x.key) [a, b]
    .ok (Guid.join (["r", home, type, flagText level] ++ ends.flatMap RecordRef.parts))

/-- Equality apart from the flag. -/
def sameRelationship (r s : RelationshipId) : Bool :=
  r.home == s.home && r.type == s.type && r.one == s.one && r.two == s.two

def decode (guid : String) (expectedHome : Option String) :
    Except Guid.Rejection RelationshipId :=
  if guid = "" then .error .emptyIdentifier
  else
    match Text.fields ':' guid.toList, Guid.split guid with
    | (['r'], _), [_, home, type, flag, markA, typeA, idA, markB, typeB, idB] =>
      if flag ≠ "0" ∧ flag ≠ "1" then .error .badLevelFlag
      else if home = "" ∨ type = "" then .error .missingComponent
      else if expectedHome.any (home ≠ ·) then .error (.foreignHome home)
      else
        match RecordRef.of? typeA idA (some markA), RecordRef.of? typeB idB (some markB) with
        | some a, some b =>
          if h : b.key < a.key then .error .unorderedEnds
          else .ok ⟨home, type, a, b, flag == "1", h⟩
        | _, _ => .error .incompleteEnd
    | _, _ => .error .notRelationship

end RelationshipId

end MetaFed
