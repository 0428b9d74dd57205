import MetaFed.Number.Binary64

/-!
Decimal text of a floating-point number: the fewest digits that read back as the number, and of
those the nearest. The point stands inside or beside the digits from `1e-4` up to below `1e16`,
and always has a digit on either side; other magnitudes have an exponent of two digits or more.
-/

namespace MetaFed.Binary64

/-- The closed or open interval of reals that read back as `m · 2 ^ e`, over `2 ^ (e - 2)`. -/
structure Interval where
  low : Nat
  high : Nat
  closed : Bool
  deriving DecidableEq, Repr

/-- Half a step to either side; just above a power of two the lower step is half as long. -/
def intervalOf (m : Nat) (e : Int) : Interval :=
  let low := if m = Nat.pow 2 52 ∧ e ≠ minExp then 4 * m - 1 else 4 * m - 2
  ⟨low, 4 * m + 2, m % 2 = 0⟩

def common (d : Nat) (k : Int) (n : Nat) (e : Int) : Nat × Nat :=
  let tens := if k ≥ 0 then d * Nat.pow 10 k.toNat else d
  let twos := if e ≥ 2 then n * Nat.pow 2 (e - 2).toNat else n
  (if e ≥ 2 then tens else tens * Nat.pow 2 (2 - e).toNat,
   if k ≥ 0 then twos else twos * Nat.pow 10 (-k).toNat)

def readsBack (m : Nat) (e : Int) (d : Nat) (k : Int) : Bool :=
  let i := intervalOf m e
  let (x, l) := common d k i.low e
  let (y, h) := common d k i.high e
  if i.closed then l ≤ x && y ≤ h else l < x && y < h

def floorAt (m : Nat) (e : Int) (k : Int) : Nat :=
  let (one, v) := common 1 k (4 * m) e
  v / one

/-- The lower of two neighbours on a decimal grid is the nearer one, a tie going to the even. -/
def lowerIsNearer (m : Nat) (e : Int) (d : Nat) (k : Int) : Bool :=
  let (mid, v) := common (2 * d + 1) k (8 * m) e
  v < mid || (v == mid && d % 2 == 0)

/-- The grid point of a spacing that reads back, the nearer where both neighbours do. -/
def onGrid? (m : Nat) (e : Int) (k : Int) : Option Nat :=
  let d := floorAt m e k
  match readsBack m e d k, readsBack m e (d + 1) k with
  | true, true => some (if lowerIsNearer m e d k then d else d + 1)
  | true, false => some d
  | false, true => some (d + 1)
  | false, false => none

def leadingPlace (m : Nat) (e : Int) : Int :=
  let s : Int := 400
  (Nat.toDigits 10 (floorAt m e (-s))).length - 1 - s

/-- The coarsest grid with a point that reads back, starting with `n` digits. -/
def shortestFrom (m : Nat) (e : Int) (place : Int) : Nat → Nat → Nat × Int
  | _, 0 => (floorAt m e (place - 17), place - 17)
  | n, tries + 1 =>
    let k := place - n
    match onGrid? m e k with
    | some d => (d, k)
    | none => shortestFrom m e place (n + 1) tries

/-- Digits without trailing zeros, and the exponent they leave. -/
def trimmed : Nat → List Char → Int → List Char × Int
  | 0, ds, k => (ds, k)
  | n + 1, ds, k =>
    if ds.length ≤ 1 ∨ ds.getLast? ≠ some '0' then (ds, k) else trimmed n ds.dropLast (k + 1)

/-- Shortest digits of a positive number, and the power of ten of the last one. -/
def shortest (m : Nat) (e : Int) : List Char × Int :=
  let (d, k) := shortestFrom m e (leadingPlace m e) 0 17
  let ds := Nat.toDigits 10 d
  trimmed ds.length ds k

/-- An exponent with its sign and at least two digits. -/
def exponentText (x : Int) : List Char :=
  let ds := Nat.toDigits 10 x.natAbs
  (if x < 0 then '-' else '+') :: (if ds.length < 2 then '0' :: ds else ds)

def layout (ds : List Char) (k : Int) : List Char :=
  let place := k + ds.length - 1
  if -4 ≤ place ∧ place < 16 then
    if k ≥ 0 then ds ++ List.replicate k.toNat '0' ++ ['.', '0']
    else if place ≥ 0 then ds.take (place + 1).toNat ++ '.' :: ds.drop (place + 1).toNat
    else '0' :: '.' :: List.replicate (-1 - place).toNat '0' ++ ds
  else
    let rest := ds.drop 1
    ds.take 1 ++ (if rest.isEmpty then [] else '.' :: rest) ++ 'e' :: exponentText place

def text : Binary64 → String
  | .infinite negative => if negative then "-inf" else "inf"
  | .finite negative m e =>
    let body := if m = 0 then ['0', '.', '0'] else layout (shortest m e).1 (shortest m e).2
    String.ofList (if negative then '-' :: body else body)

end MetaFed.Binary64
