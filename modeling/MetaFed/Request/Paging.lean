import MetaFed.Failure

/-!
Windows on a list of results. A window skips the results before its start and keeps those of one
page; a page of size zero has no end. A window may also ask for an order of the results.
-/

namespace MetaFed

inductive Sequencing where
  | any
  | guid
  | creationRecent
  | creationOldest
  | updateRecent
  | updateOldest
  | propertyAscending
  | propertyDescending
  deriving DecidableEq, Repr

namespace Sequencing

def all : List Sequencing :=
  [.any, .guid, .creationRecent, .creationOldest, .updateRecent, .updateOldest,
    .propertyAscending, .propertyDescending]

def word : Sequencing → String
  | .any => "any"
  | .guid => "guid"
  | .creationRecent => "creation_date_recent"
  | .creationOldest => "creation_date_oldest"
  | .updateRecent => "last_update_recent"
  | .updateOldest => "last_update_oldest"
  | .propertyAscending => "property_ascending"
  | .propertyDescending => "property_descending"

def ofWord? (w : String) : Option Sequencing :=
  all.find? fun o => o.word == w

def isByProperty : Sequencing → Bool
  | .propertyAscending => true
  | .propertyDescending => true
  | _ => false

end Sequencing

/-- A window on results; a page size of zero keeps all of them. -/
structure Window where
  start : Nat := 0
  pageSize : Nat := 0
  property : Option String := none
  order : Option Sequencing := none
  deriving DecidableEq, Repr, Inhabited

namespace Window

/-- The window with these fields, if they are in range; an order by property needs a property. -/
def of (start pageSize : Int) (property : Option String) (order : Option Sequencing) :
    Attempt Window :=
  if start < 0 then refuse (.invalidParameter (.negativeStart start))
  else if pageSize < 0 then refuse (.invalidParameter (.negativePageSize pageSize))
  else
    match order with
    | some o =>
      if o.isByProperty ∧ ¬ property.any (· ≠ "") then
        refuse (.invalidParameter (.sequencingWithoutProperty o.word))
      else .ok ⟨start.toNat, pageSize.toNat, property, order⟩
    | none => .ok ⟨start.toNat, pageSize.toNat, property, order⟩

/-- Number of leading results that fill the window, zero where all are needed. -/
def needed (w : Window) : Nat :=
  if w.pageSize = 0 then 0 else w.start + w.pageSize

end Window

/-- The results of a page: those from `start` on, `size` of them or all if `size` is zero. -/
def page {α : Type} (start size : Nat) (xs : List α) : List α :=
  if size = 0 then xs.drop start else (xs.drop start).take size

end MetaFed
