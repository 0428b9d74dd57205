import MetaFed.Failure

/-!
Outcomes of operations: a value, or the refusal that stands in for it. Faults and refusals for
reasons of configuration have no outcome.
-/

namespace MetaFed

/-- What an operation answers. -/
inductive Outcome (α : Type) where
  | value (x : α)
  | failure (r : Refusal)
  deriving Repr

namespace Outcome

variable {α : Type}

def isSuccess : Outcome α → Bool
  | .value _ => true
  | .failure _ => false

def isMisconfigured (r : Refusal) : Bool :=
  match r.cause with
  | .configuration _ => true
  | _ => false

/-- The outcome of an operation of a home collection that ended like this. -/
def ofAttempt (operation home : String) : Attempt α → Attempt (Outcome α)
  | .ok x => .ok (.value x)
  | .error (.fault f) => .error (.fault f)
  | .error (.refused r) =>
    if isMisconfigured r then .error (.refused r)
    else .ok (.failure ((r.withOperation operation).withParam "home_collection_id" (.text home)))

def unwrap : Outcome α → Attempt α
  | .value x => .ok x
  | .failure r => .error (.refused r)

end Outcome

end MetaFed
