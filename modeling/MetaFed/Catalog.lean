import MetaFed.Native.Search
import MetaFed.Sorted

/-!
A catalog of records. Conditions follow paths of property names, each but the last through the
references that the property holds to records of the catalog. The hits of a search are sorted by
its keys, the last key first, so that the first key counts most; absent values come after all
others. Values without an order cannot be sort keys of one search.
-/

namespace MetaFed

/-- Records by id, the properties reported to hold texts by asset type, and the release. -/
structure Catalog where
  records : Assoc String Record := []
  stringProperties : StringProperties := []
  version : String := "11.7.1.0"
  deriving Repr

namespace Catalog

variable (c : Catalog)

def find? (id : String) : Option Record := Assoc.find? id c.records

def put (r : Record) : Catalog :=
  { c with records := Assoc.put r.id r c.records }

def follow (property : String) : List Record → Attempt (List Record)
  | [] => .ok []
  | r :: rs => do
    let refs ← r.references property
    .ok (refs.filterMap (fun x => c.find? x.id) ++ (← follow property rs))

def followAll : List String → List Record → Attempt (List Record)
  | [], rs => .ok rs
  | hop :: hops, rs => do followAll hops (← c.follow hop rs)

/-- The values a property has on a record: the members of a list, or one value, or none. -/
def valuesOf (property : String) (r : Record) : List Value :=
  match r.value property with
  | .null => []
  | .list vs => vs
  | v => [v]

def valuesAlong (r : Record) (path : String) : Attempt (List Value) := do
  let steps := Text.fieldsOf '.' path
  let rs ← c.followAll steps.dropLast [r]
  .ok (rs.flatMap (valuesOf (steps.getLastD "")))

def holds (r : Record) (k : NativeCondition) : Attempt Bool := do
  k.operator.holds (← c.valuesAlong r k.property) k.value

/-- The records that are of one of the types and meet the conditions, in the order of the
catalog. -/
def matching (types : List String) (conditions : Node) : List Record → Attempt (List Record)
  | [] => .ok []
  | r :: rs => do
    let found ← if types.contains r.type then conditions.holds (c.holds r) else .ok false
    -- One record on which the conditions fail ends the search, wherever it stands.
    let rest ← matching types conditions rs
    .ok (if found then r :: rest else rest)

/-- The order of two sort values, the absent one last. -/
def keyOrder? (a b : Value) : Option Ordering :=
  match a.isNull, b.isNull with
  | true, true => some .eq
  | true, false => some .gt
  | false, true => some .lt
  | false, false => if a.same b then some .eq else a.compare? b

def precedes (k : SortKey) (r s : Record) : Bool :=
  if k.ascending then (keyOrder? (r.value k.property) (s.value k.property)).any Ordering.isLE
  else (keyOrder? (s.value k.property) (r.value k.property)).any Ordering.isLE

/-- Any two records have an order under a sort key. -/
def isComparable (k : SortKey) (rs : List Record) : Bool :=
  rs.all fun r => rs.all fun s =>
    (keyOrder? (r.value k.property) (s.value k.property)).isSome

/-- Records in the order of a sort key; those it leaves equal keep their order. -/
def sortByKey (k : SortKey) (rs : List Record) : Attempt (List Record) :=
  if isComparable k rs then .ok (sortBy (precedes k) rs) else stop .incomparable

def sortByKeys : List SortKey → List Record → Attempt (List Record)
  | [], rs => .ok rs
  -- Stable sorts by the later keys come first, so that the first key counts most.
  | k :: ks, rs => do sortByKey k (← sortByKeys ks rs)

def search (s : NativeSearch) : Attempt (List Record) := do
  let rs ← c.matching s.types s.conditions.toNode c.records.values
  let rs ← sortByKeys s.sorts rs
  .ok ((page s.start s.pageSize rs).map fun r => r.project s.properties)

/-- The record of an id, with some of its properties; all of them where none are named. -/
def fetch (id : String) (properties : List String) : Option Record :=
  (c.find? id).map fun r => r.project properties

def reported (assetType : String) : List String :=
  (Assoc.find? assetType c.stringProperties).getD []

end Catalog

end MetaFed
