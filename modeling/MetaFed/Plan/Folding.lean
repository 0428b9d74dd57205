import MetaFed.Plan.Condition

/-!
Folding the conditions of a request for one mapping. A condition becomes a constant, if it holds
for all records of the mapping or for none, or a native condition. Constants are absorbed by the
groups they stand in. Some conditions can only be approximated by one that holds for more records;
that is of use only where a group that holds for more records is the result.
-/

namespace MetaFed

/-- What a condition comes to for the records of one mapping. -/
inductive Folded where
  | const (holds : Bool)
  | node (n : Node)
  deriving Repr

/-- What a condition comes to, and whether that holds for more records than the condition. -/
structure Folding where
  folded : Folded
  approximate : Bool := false
  deriving Repr

namespace Folded

def isNever : Folded → Bool
  | .const b => !b
  | .node _ => false

def isAlways : Folded → Bool
  | .const b => b
  | .node _ => false

def nodes (fs : List Folded) : List Node :=
  fs.filterMap fun f =>
    match f with
    | .const _ => none
    | .node n => some n

/-- Folded members of a group, as one condition. -/
def combine (criteria : Criteria) (fs : List Folded) : Folded :=
  match criteria with
  | .all =>
    if fs.any isNever then .const false
    else
      match nodes fs with
      | [] => .const true
      | [n] => .node n
      | ns => .node (.all ns)
  | .any =>
    if fs.any isAlways then .const true
    else
      match nodes fs with
      | [] => .const false
      | [n] => .node n
      | ns => .node (.any ns)
  | .none =>
    if fs.any isAlways then .const false
    else
      match nodes fs with
      | [] => .const true
      | ns => .node (.group ns true true)

def holds (leaf : NativeCondition → Attempt Bool) : Folded → Attempt Bool
  | .const b => .ok b
  | .node n => n.holds leaf

/-- The members a folded condition adds to a group of which all have to hold. -/
def conjuncts : Folded → List Node
  | .const _ => []
  | .node (.group ns false false) => ns
  | .node n => [n]

end Folded

/-- How single conditions fold. The flag tells whether a condition that holds for more records
leads to a result that holds for more records. -/
abbrev Resolver := PropertyCondition → Bool → Attempt Folding

namespace Criterion

/-- A group passes a surplus of records on. -/
def passesOn (criteria : Criteria) (members : Nat) : Bool :=
  match criteria with
  | .all => true
  | .any => members == 1
  | .none => false

mutual

/-- Folds a criterion; a group is approximate if one of its members is. -/
def fold (resolve : Resolver) (conjunctive : Bool) : Criterion → Attempt Folding
  | .leaf c => resolve c conjunctive
  | .group criteria ms =>
    if ms.isEmpty then .ok ⟨.const true, false⟩
    else do
      let fs ← foldAll resolve (conjunctive && passesOn criteria ms.length) ms
      .ok ⟨Folded.combine criteria (fs.map Folding.folded), fs.any Folding.approximate⟩

def foldAll (resolve : Resolver) (conjunctive : Bool) : List Criterion → Attempt (List Folding)
  | [] => .ok []
  | c :: cs => do
    let f ← fold resolve conjunctive c
    .ok (f :: (← foldAll resolve conjunctive cs))

end

end Criterion

namespace PropertyGroup

def fold (resolve : Resolver) (g : PropertyGroup) : Attempt Folding :=
  g.toCriterion.fold resolve true

/-- What an optional group comes to; none at all holds for every record. -/
def foldOption (resolve : Resolver) : Option PropertyGroup → Attempt Folding
  | some g => g.fold resolve
  | none => .ok ⟨.const true, false⟩

end PropertyGroup

namespace Resolver

/-- A condition on a property without value. -/
def unmapped (c : PropertyCondition) : Folding :=
  ⟨.const (c.operator = .isNull), false⟩

/-- A condition on the catalog property an abstract one is mapped to. -/
def through (backendFor : String → Option String) : Resolver := fun c _ =>
  match backendFor c.property with
  | some b => do .ok ⟨.node (.leaf (← c.compile b)), false⟩
  | none => .ok (unmapped c)

end Resolver

end MetaFed
