/-!
Binary floating-point numbers of 64 bits as exact dyadic fractions. A decimal is read to the
nearest such number, a tie to the even one; numbers are compared by their exact values.
-/

namespace MetaFed

/-- A finite number `±mant · 2 ^ exp`, or an infinity. -/
inductive Binary64 where
  | finite (negative : Bool) (mant : Nat) (exp : Int)
  | infinite (negative : Bool)
  deriving DecidableEq, Repr, Inhabited

namespace Binary64

def minExp : Int := -1074

def maxExp : Int := 971

/-- A fraction rounded to a whole number, a half to the even neighbour. -/
def roundDiv (num den : Nat) : Nat :=
  let q := num / den
  let r := num % den
  if 2 * r < den then q
  else if den < 2 * r then q + 1
  else if q % 2 = 0 then q else q + 1

def scaledRound (num den : Nat) (e : Int) : Nat :=
  if e ≥ 0 then roundDiv num (den * Nat.pow 2 e.toNat)
  else roundDiv (num * Nat.pow 2 (-e).toNat) den

/-- The exponent that leaves 53 bits before the point, or the least one. -/
def exponentFor (num den : Nat) : Int :=
  let guess : Int := (Nat.log2 num : Int) - Nat.log2 den - 52
  let fits : Bool :=
    if guess ≥ 0 then den * Nat.pow 2 (guess.toNat + 52) ≤ num
    else den * Nat.pow 2 52 ≤ num * Nat.pow 2 (-guess).toNat
  max minExp (if fits then guess else guess - 1)

def ofFraction (negative : Bool) (num den : Nat) : Binary64 :=
  if num = 0 then .finite negative 0 minExp
  else
    let e := exponentFor num den
    let m := scaledRound num den e
    let (m, e) := if m = Nat.pow 2 53 then (Nat.pow 2 52, e + 1) else (m, e)
    if maxExp < e then .infinite negative else .finite negative m e

def ofDecimal (negative : Bool) (digits : Nat) (exp10 : Int) : Binary64 :=
  if digits = 0 then .finite negative 0 minExp
  else
    let size : Int := (Nat.toDigits 10 digits).length + exp10
    if 400 < size then .infinite negative
    else if size < -400 then .finite negative 0 minExp
    else if exp10 ≥ 0 then ofFraction negative (digits * Nat.pow 10 exp10.toNat) 1
    else ofFraction negative digits (Nat.pow 10 (-exp10).toNat)

/-- Both `m · 2 ^ e` and `n · 2 ^ f` over a common power of two. -/
def aligned (m : Int) (e : Int) (n : Int) (f : Int) : Int × Int :=
  if e ≤ f then (m, n * Nat.pow 2 (f - e).toNat) else (m * Nat.pow 2 (e - f).toNat, n)

def signed (negative : Bool) (mant : Nat) : Int :=
  if negative then -mant else mant

def compare : Binary64 → Binary64 → Ordering
  | .infinite a, .infinite b => if a = b then .eq else if a then .lt else .gt
  | .infinite a, .finite .. => if a then .lt else .gt
  | .finite .., .infinite b => if b then .gt else .lt
  | .finite a m e, .finite b n f =>
    let (x, y) := aligned (signed a m) e (signed b n) f
    Ord.compare x y

def compareInt (i : Int) : Binary64 → Ordering
  | .infinite b => if b then .gt else .lt
  | .finite b n f =>
    let (x, y) := aligned i 0 (signed b n) f
    Ord.compare x y

def isZero : Binary64 → Bool
  | .finite _ m _ => m == 0
  | .infinite _ => false

end Binary64

end MetaFed
