import MetaFed.Request
import MetaFed.SearchPattern

/-!
What the conditions of a request say about property values. An absent value is null; values that
have no order satisfy no comparison by order.
-/

namespace MetaFed

namespace PropertyOperator

/-- A value, or one member of a list, matches a pattern; only a text is a pattern. -/
def matchesPattern (actual pattern : Value) : Attempt Bool :=
  match actual, pattern with
  | .null, _ => .ok false
  | .list vs, .text p => vs.anyM fun v => SearchPattern.matchesText p v.asText
  | v, .text p => SearchPattern.matchesText p v.asText
  | v, p => .ok (v.same p)

def ordered (test : Ordering → Bool) (actual expected : Value) : Bool :=
  !actual.isNull && !expected.isNull && (actual.compare? expected).any test

def holds (o : PropertyOperator) (actual expected : Value) : Attempt Bool :=
  match o with
  | .eq => .ok (actual.same expected)
  | .neq => .ok (!actual.same expected)
  | .like => matchesPattern actual expected
  | .isNull => .ok actual.isNull
  | .notNull => .ok !actual.isNull
  | .memberOf =>
    match expected with
    | .list vs => .ok (actual.isAmong vs)
    | v => .ok (actual.same v)
  | .gt => .ok (ordered Ordering.isGT actual expected)
  | .gte => .ok (ordered Ordering.isGE actual expected)
  | .lt => .ok (ordered Ordering.isLT actual expected)
  | .lte => .ok (ordered Ordering.isLE actual expected)

end PropertyOperator

def PropertyCondition.holds (values : Assoc String Value) (c : PropertyCondition) : Attempt Bool :=
  c.operator.holds ((Assoc.find? c.property values).getD .null) c.value

namespace Criterion

mutual

/-- The criterion holds, given what its conditions say; members are tried in order, no further
than needed. -/
def holds (leaf : PropertyCondition → Attempt Bool) : Criterion → Attempt Bool
  | .leaf c => leaf c
  | .group criteria ms =>
    if ms.isEmpty then .ok true
    else
      match criteria with
      | .all => allHold leaf ms
      | .any => anyHolds leaf ms
      | .none => (anyHolds leaf ms).map (!·)

def anyHolds (leaf : PropertyCondition → Attempt Bool) : List Criterion → Attempt Bool
  | [] => .ok false
  | c :: cs => do if ← holds leaf c then .ok true else anyHolds leaf cs

def allHold (leaf : PropertyCondition → Attempt Bool) : List Criterion → Attempt Bool
  | [] => .ok true
  | c :: cs => do if ← holds leaf c then allHold leaf cs else .ok false

end

end Criterion

def PropertyGroup.matches (g : PropertyGroup) (values : Assoc String Value) : Attempt Bool :=
  g.toCriterion.holds (PropertyCondition.holds values)

end MetaFed
