import MetaFed.Request.Paging

/-!
What callers ask for: conditions on abstract properties, of which all, any or none have to hold,
nested to any depth, and conditions on classifications. The value of a `like` condition is a
search pattern.
-/

namespace MetaFed

/-- How many conditions of a group have to hold. -/
inductive Criteria where
  | all
  | any
  | none
  deriving DecidableEq, Repr

namespace Criteria

def words : Assoc String Criteria := [("all", .all), ("any", .any), ("none", .none)]

def word : Criteria → String
  | .all => "all"
  | .any => "any"
  | .none => "none"

end Criteria

inductive PropertyOperator where
  | eq
  | neq
  | like
  | gt
  | gte
  | lt
  | lte
  | isNull
  | notNull
  | memberOf
  deriving DecidableEq, Repr

namespace PropertyOperator

def all : List PropertyOperator :=
  [.eq, .neq, .like, .gt, .gte, .lt, .lte, .isNull, .notNull, .memberOf]

def word : PropertyOperator → String
  | .eq => "eq"
  | .neq => "neq"
  | .like => "like"
  | .gt => "gt"
  | .gte => "gte"
  | .lt => "lt"
  | .lte => "lte"
  | .isNull => "is_null"
  | .notNull => "not_null"
  | .memberOf => "in"

def ofWord? (w : String) : Option PropertyOperator :=
  all.find? fun o => o.word == w

end PropertyOperator

structure PropertyCondition where
  property : String
  operator : PropertyOperator := .eq
  value : Value := .null
  deriving Repr

inductive Criterion where
  | leaf (c : PropertyCondition)
  | group (criteria : Criteria) (members : List Criterion)
  deriving Repr

/-- Conditions on properties, as a request holds them. A group without members holds. -/
structure PropertyGroup where
  members : List Criterion := []
  criteria : Criteria := .all
  deriving Repr

namespace PropertyCondition

def of (property : String) (operator : PropertyOperator) (value : Value) :
    Attempt PropertyCondition :=
  if property = "" then refuse (.invalidParameter .conditionWithoutProperty)
  else .ok ⟨property, operator, value⟩

/-- The condition that a property has a value; a text is a search pattern. -/
def ofValue (property : String) (value : Value) : Attempt PropertyCondition :=
  match value with
  | .text _ => of property .like value
  | _ => of property .eq value

end PropertyCondition

mutual

def Criterion.leaves : Criterion → List PropertyCondition
  | .leaf c => [c]
  | .group _ ms => Criterion.leavesOf ms

def Criterion.leavesOf : List Criterion → List PropertyCondition
  | [] => []
  | c :: cs => c.leaves ++ Criterion.leavesOf cs

end

namespace PropertyGroup

def toCriterion (g : PropertyGroup) : Criterion :=
  .group g.criteria g.members

/-- The conditions in a group, without the groups they stand in. -/
def leaves (g : PropertyGroup) : List PropertyCondition :=
  Criterion.leavesOf g.members

def single (c : PropertyCondition) : PropertyGroup :=
  ⟨[.leaf c], .all⟩

def ofValues (values : Assoc String Value) (criteria : Criteria) : Attempt PropertyGroup := do
  let cs ← values.mapM fun e => PropertyCondition.ofValue e.1 e.2
  .ok ⟨cs.map .leaf, criteria⟩

end PropertyGroup

structure ClassificationCondition where
  name : String
  properties : Option PropertyGroup := none
  deriving Repr

/-- Conditions on classifications, as a request holds them. A group without members holds. -/
structure ClassificationGroup where
  members : List ClassificationCondition := []
  criteria : Criteria := .all
  deriving Repr

def ClassificationGroup.ofNames (names : List String) : ClassificationGroup :=
  ⟨names.map fun n => ⟨n, none⟩, .all⟩

/-- A search for entities. `within` narrows the types to some subtypes if it names any;
`historical` asks for the state at some time in the past. -/
structure EntitySearch where
  type : Option String := none
  within : List String := []
  properties : Option PropertyGroup := none
  classifications : Option ClassificationGroup := none
  window : Window := {}
  historical : Bool := false
  deriving Repr

structure RelationshipSearch where
  type : Option String := none
  properties : Option PropertyGroup := none
  window : Window := {}
  historical : Bool := false
  deriving Repr

end MetaFed
