/-!
Sets of code points as run lengths: a list of lengths that alternate between outside and
inside, starting outside at code point zero.
-/

namespace MetaFed.Text

/-- Membership when the next run is `inside` or not and starts `n` code points before the goal. -/
def inRunsFrom (inside : Bool) : List Nat → Nat → Bool
  | [], _ => inside
  | len :: rest, n => if n < len then inside else inRunsFrom (!inside) rest (n - len)

/-- A code point that falls into an inside run. -/
def inRuns (runs : List Nat) (n : Nat) : Bool :=
  inRunsFrom false runs n

end MetaFed.Text
