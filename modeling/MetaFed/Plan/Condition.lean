import MetaFed.Native.Condition
import MetaFed.Request
import MetaFed.SearchPattern

/-!
Native conditions for conditions on one catalog property. Each family of operators has its own
rule, and exactly one of them applies. Only a literal search pattern has a native counterpart.
-/

namespace MetaFed

def LiteralKind.native : LiteralKind → NativeOperator
  | .exact => .eq
  | .startsWith => .startsWith
  | .endsWith => .endsWith
  | .contains => .contains

/-- The native comparison for a pattern; a general one has none. -/
def SearchPattern.native : SearchPattern → Attempt NativeOperator
  | .literal kind _ => .ok kind.native
  | .general => refuse (.functionNotSupported .generalPattern)

namespace PropertyOperator

def comparison? : PropertyOperator → Option NativeOperator
  | .eq => some .eq
  | .neq => some .ne
  | .gt => some .gt
  | .gte => some .ge
  | .lt => some .lt
  | .lte => some .le
  | _ => none

def standard? (property : String) (o : PropertyOperator) (value : Value) :
    Option NativeCondition :=
  o.comparison?.map fun n => .of property n value

def string? (property : String) (o : PropertyOperator) (value : Value) :
    Attempt (Option NativeCondition) :=
  match o, value with
  | .like, .text p =>
    match SearchPattern.classify p with
    | .literal kind l => .ok (some (.of property kind.native (.text l)))
    | .general => refuse (.functionNotSupported (.nativePattern property p))
  | .like, v => .ok (some (.of property .eq v))
  | _, _ => .ok none

def null? (property : String) (o : PropertyOperator) : Option NativeCondition :=
  match o with
  | .isNull => some (.of property .isNull .null)
  | .notNull => some (.of property .isNotNull .null)
  | _ => none

/-- The native condition of a membership test; a single value is a list of one. -/
def set? (property : String) (o : PropertyOperator) (value : Value) : Option NativeCondition :=
  match o, value with
  | .memberOf, .list vs => some (.of property .memberOf (.list vs))
  | .memberOf, v => some (.of property .memberOf (.list [v]))
  | _, _ => none

def compile (property : String) (o : PropertyOperator) (value : Value) :
    Attempt NativeCondition :=
  match standard? property o value, null? property o, set? property o value with
  | some c, _, _ => .ok c
  | none, some c, _ => .ok c
  | none, none, some c => .ok c
  | none, none, none => do .ok ((← string? property o value).getD (.of property .eq value))

end PropertyOperator

/-- The native condition of a condition, on the catalog property it is mapped to. -/
def PropertyCondition.compile (backend : String) (c : PropertyCondition) :
    Attempt NativeCondition :=
  c.operator.compile backend c.value

end MetaFed
