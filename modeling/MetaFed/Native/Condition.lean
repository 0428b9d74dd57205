import MetaFed.Native.Operator

/-!
Native conditions: comparisons of property paths with values, and groups of conditions of which
all or any have to hold. Either may be negated; a group without members holds.
-/

namespace MetaFed

/-- A comparison of the values a property path reaches with a value. -/
structure NativeCondition where
  property : String
  operator : NativeOperator
  value : Value := .null
  negated : Bool := false
  deriving Repr

inductive Node where
  | leaf (c : NativeCondition)
  | group (members : List Node) (matchAny negated : Bool)
  deriving Repr

structure ConditionSet where
  members : List Node := []
  matchAny : Bool := false
  negated : Bool := false
  deriving Repr

namespace NativeCondition

def of (property : String) (operator : NativeOperator) (value : Value) : NativeCondition :=
  { property, operator, value }

/-- A condition as part of a search request; tests for null carry no value. -/
def toValue (c : NativeCondition) : Value :=
  .dict ([("property", .text c.property), ("operator", .text c.operator.word)]
    ++ (if c.operator = .isNull ∨ c.operator = .isNotNull then [] else [("value", c.value)])
    ++ (if c.negated then [("negated", .bool true)] else []))

end NativeCondition

namespace Node

def compare (property : String) (operator : NativeOperator) (value : Value) : Node :=
  .leaf (.of property operator value)

def all (members : List Node) : Node := .group members false false

def any (members : List Node) : Node := .group members true false

mutual

def toValue : Node → Value
  | .leaf c => c.toValue
  | .group ms matchAny negated =>
    .dict ([("conditions", .list (toValues ms)),
        ("operator", .text (if matchAny then "or" else "and"))]
      ++ (if negated then [("negated", .bool true)] else []))

def toValues : List Node → List Value
  | [] => []
  | n :: ns => toValue n :: toValues ns

end

mutual

/-- The condition holds, given what its comparisons say; members are tried in order, no further
than needed. -/
def holds (leaf : NativeCondition → Attempt Bool) : Node → Attempt Bool
  | .leaf c => (leaf c).map (· != c.negated)
  | .group ms matchAny negated =>
    (if ms.isEmpty then .ok true
      else if matchAny then anyHolds leaf ms
      else allHold leaf ms).map (· != negated)

def anyHolds (leaf : NativeCondition → Attempt Bool) : List Node → Attempt Bool
  | [] => .ok false
  | n :: ns => do if ← holds leaf n then .ok true else anyHolds leaf ns

def allHold (leaf : NativeCondition → Attempt Bool) : List Node → Attempt Bool
  | [] => .ok true
  | n :: ns => do if ← holds leaf n then allHold leaf ns else .ok false

end

end Node

def ConditionSet.toNode (s : ConditionSet) : Node :=
  .group s.members s.matchAny s.negated

end MetaFed
