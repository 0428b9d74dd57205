import MetaFed.Failure

/-!
Operators of the catalog's native conditions and what they say about property values. A path may
reach several values: a condition holds if it holds for one of them, except that `<>` has to hold
for all of them and that only a path without values is null. An absent value is null.
-/

namespace MetaFed

inductive NativeOperator where
  | eq
  | ne
  | gt
  | lt
  | ge
  | le
  | startsWith
  | endsWith
  | contains
  | isNull
  | isNotNull
  | memberOf
  | between
  deriving DecidableEq, Repr

namespace NativeOperator

def all : List NativeOperator :=
  [.eq, .ne, .gt, .lt, .ge, .le, .startsWith, .endsWith, .contains, .isNull, .isNotNull,
    .memberOf, .between]

def word : NativeOperator → String
  | .eq => "="
  | .ne => "<>"
  | .gt => ">"
  | .lt => "<"
  | .ge => ">="
  | .le => "<="
  | .startsWith => "like \x7b0\x7d%"
  | .endsWith => "like %\x7b0\x7d"
  | .contains => "like %\x7b0\x7d%"
  | .isNull => "isNull"
  | .isNotNull => "isNotNull"
  | .memberOf => "in"
  | .between => "between"

def ofWord? (w : String) : Option NativeOperator :=
  all.find? fun o => o.word == w

/-- The order of two values; values without one cannot be compared. -/
def ordering (a b : Value) : Attempt Ordering :=
  match Value.compare? a b with
  | some o => .ok o
  | none => stop .incomparable

/-- A comparison by order, which does not hold for null. -/
def ordered (test : Ordering → Bool) (value expected : Value) : Attempt Bool :=
  if value.isNull ∨ expected.isNull then .ok false
  else do .ok (test (← ordering value expected))

/-- A comparison of texts, which does not hold for null. -/
def textual (test : List Char → List Char → Bool) (value expected : Value) : Attempt Bool :=
  .ok (!value.isNull && test expected.asText.toList value.asText.toList)

def holdsFor (o : NativeOperator) (value expected : Value) : Attempt Bool :=
  match o with
  | .eq => .ok (value.same expected)
  | .ne => .ok (!value.same expected)
  | .gt => ordered Ordering.isGT value expected
  | .lt => ordered Ordering.isLT value expected
  | .ge => ordered Ordering.isGE value expected
  | .le => ordered Ordering.isLE value expected
  | .startsWith => textual List.isPrefixOf value expected
  | .endsWith => textual List.isSuffixOf value expected
  | .contains => textual Text.occursIn value expected
  | .isNull => .ok value.isNull
  | .isNotNull => .ok !value.isNull
  | .memberOf =>
    match expected with
    | .list xs => .ok (value.isAmong xs)
    | _ => .ok false
  | .between =>
    match value, expected with
    | .null, _ => .ok false
    | v, .list [low, high] => do
      if (← ordering low v).isLE then .ok (← ordering v high).isLE else .ok false
    | _, _ => .ok false

def holds (o : NativeOperator) (values : List Value) (expected : Value) : Attempt Bool :=
  if values.isEmpty then o.holdsFor .null expected
  else
    match o with
    | .isNull => .ok false
    | .ne => values.allM fun v => o.holdsFor v expected
    | _ => values.anyM fun v => o.holdsFor v expected

/-- The operator holds, evaluated by a catalog that knows some operators only. -/
def evaluate (known : List NativeOperator) (o : NativeOperator) (values : List Value)
    (expected : Value) : Attempt Bool :=
  if o ∈ known then o.holds values expected else stop .unregisteredOperator

end NativeOperator

end MetaFed
