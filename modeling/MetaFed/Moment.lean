import MetaFed.Number.Binary64

/-!
Points in time with a calendar date, a time of day to the microsecond, and the offset from UTC
they were given with, if any. With an offset they stand for instants and compare as such; without
one they compare by their calendar fields; the two kinds are not comparable with one another. A
moment is also given as a count of seconds or milliseconds since the start of 1970.
-/

namespace MetaFed

/-- A date and time of day, and the offset from UTC in minutes if one was given. -/
structure Moment where
  year : Nat
  month : Nat
  day : Nat
  hour : Nat := 0
  minute : Nat := 0
  second : Nat := 0
  micro : Nat := 0
  offset : Option Int := none
  deriving DecidableEq, Repr, Inhabited

namespace Moment

def isLeap (y : Nat) : Bool :=
  y % 4 == 0 && (y % 100 != 0 || y % 400 == 0)

def daysIn (y m : Nat) : Nat :=
  match m with
  | 2 => if isLeap y then 29 else 28
  | 4 | 6 | 9 | 11 => 30
  | _ => 31

/-- Days since the first of March of year zero, with years that begin in March. -/
def dayNumber (y m d : Nat) : Int :=
  let y' : Int := if m ≤ 2 then (y : Int) - 1 else y
  let m' : Int := ((m : Int) + 9) % 12
  365 * y' + y' / 4 - y' / 100 + y' / 400 + (153 * m' + 2) / 5 + d - 1

def dateOf (n : Int) : Int × Nat × Nat :=
  let era := n / 146097
  let doe := n % 146097
  let yoe := (doe - doe / 1460 + doe / 36524 - doe / 146096) / 365
  let doy := doe - (365 * yoe + yoe / 4 - yoe / 100)
  let mp := (5 * doy + 2) / 153
  let d := doy - (153 * mp + 2) / 5 + 1
  let m := if mp < 10 then mp + 3 else mp - 9
  (yoe + era * 400 + (if m ≤ 2 then 1 else 0), m.toNat, d.toNat)

def epochDay : Int := 719468

def clockMicros (t : Moment) : Int :=
  (((dayNumber t.year t.month t.day * 24 + t.hour) * 60 + t.minute) * 60 + t.second) * 1000000
    + t.micro

/-- Microseconds in UTC; a moment without offset is taken by its clock. -/
def utcMicros (t : Moment) : Int :=
  t.clockMicros - t.offset.getD 0 * 60000000

def comparable (s t : Moment) : Bool :=
  s.offset.isSome == t.offset.isSome

def same (s t : Moment) : Bool :=
  comparable s t && s.utcMicros == t.utcMicros

def compare? (s t : Moment) : Option Ordering :=
  if comparable s t then some (Ord.compare s.utcMicros t.utcMicros) else none

/-- Seconds from 1970 to the start of the year 1600, the first one that a count can reach. -/
def firstSecond : Int := -11676096000

def lastSecond : Int := 253402300799

/-- A count above this one is of milliseconds, not of seconds. -/
def mostSeconds : Nat := 20000000000

/-- The moment in UTC that is some seconds and microseconds after the start of 1970. -/
def ofUtc? (secs : Int) (micros : Nat) : Option Moment :=
  let secs := secs + micros / 1000000
  if firstSecond ≤ secs ∧ secs ≤ lastSecond then
    let (y, m, d) := dateOf (secs / 86400 + epochDay)
    let s := (secs % 86400).toNat
    some ⟨y.toNat, m, d, s / 3600, s / 60 % 60, s % 60, micros % 1000000, some 0⟩
  else none

/-- The moment that is a count of seconds after the start of 1970, or of milliseconds if the count
is large, and some microseconds more. -/
def ofCount? (n : Int) (micros : Nat) : Option Moment :=
  if n.natAbs ≤ mostSeconds then ofUtc? n micros
  else ofUtc? (n / 1000) ((n % 1000).toNat * 1000 + micros)

/-- The moment of a count with a fraction, whose digits are read off without its sign. -/
def ofReal? : Binary64 → Option Moment
  | .infinite _ => none
  | .finite negative mant exp =>
    let den : Nat := Nat.pow 2 (-exp).toNat
    let num : Nat := mant * Nat.pow 2 exp.toNat
    let floor := Binary64.signed negative num / den
    ofCount? floor (Binary64.roundDiv (num % den * 1000000) den)

def isValid (t : Moment) : Bool :=
  1 ≤ t.year && 1 ≤ t.month && t.month ≤ 12 && 1 ≤ t.day && t.day ≤ daysIn t.year t.month
    && t.hour < 24 && t.minute < 60 && t.second < 60

/-- A number written with exactly `n` decimal digits, and what follows it. -/
def digits? : Nat → Nat → List Char → Option (Nat × List Char)
  | 0, acc, cs => some (acc, cs)
  | n + 1, acc, c :: cs => if c.isDigit then digits? n (acc * 10 + (c.toNat - 48)) cs else none
  | _ + 1, _, [] => none

/-- Microseconds of the digits after the point, further digits being dropped. -/
def microsOf (ds : List Char) : Nat :=
  ((ds ++ List.replicate 6 '0').take 6).foldl (fun acc c => acc * 10 + (c.toNat - 48)) 0

def offset? : List Char → Option (Option Int)
  | [] => some none
  | ['Z'] => some (some 0)
  | ['z'] => some (some 0)
  | c :: cs =>
    if c ≠ '+' ∧ c ≠ '-' ∧ c ≠ '−' then none
    else do
      let (h, cs) ← digits? 2 0 cs
      let cs := if cs.head? = some ':' then cs.tail else cs
      let (m, cs) ← digits? 2 0 cs
      if cs.isEmpty ∧ m < 60 ∧ h < 24 then
        let total : Int := 60 * h + m
        some (some (if c = '+' then total else -total))
      else none

def tail? (t : Moment) : List Char → Option Moment
  | ':' :: cs => do
    let (s, cs) ← digits? 2 0 cs
    match cs with
    | c :: r =>
      if c = '.' ∨ c = ',' then
        let ds := r.takeWhile Char.isDigit
        if ds.isEmpty then none
        else
          let o ← offset? (r.dropWhile Char.isDigit)
          some { t with second := s, micro := microsOf ds, offset := o }
      else
        let o ← offset? cs
        some { t with second := s, offset := o }
    | [] => some { t with second := s }
  | cs => do
    let o ← offset? cs
    some { t with offset := o }

/-- The fields of an ISO 8601 date, or date and time, whatever their ranges. -/
def fields? (cs : List Char) : Option Moment := do
  let (y, cs) ← digits? 4 0 cs
  let (m, cs) ← digits? 2 0 (← dash? cs)
  let (d, cs) ← digits? 2 0 (← dash? cs)
  match cs with
  | [] => some ⟨y, m, d, 0, 0, 0, 0, none⟩
  | c :: cs =>
    if c = 'T' ∨ c = 't' ∨ c = ' ' ∨ c = '_' then
      let (h, cs) ← digits? 2 0 cs
      match cs with
      | ':' :: cs =>
        let (mi, cs) ← digits? 2 0 cs
        tail? ⟨y, m, d, h, mi, 0, 0, none⟩ cs
      | _ => none
    else none
where
  dash? : List Char → Option (List Char)
    | '-' :: cs => some cs
    | _ => none

def ofIso? (s : String) : Option Moment := do
  let t ← fields? s.toList
  if t.isValid then some t else none

/-- Reads a count of seconds or milliseconds written in decimal digits. -/
def ofDecimal? (s : String) : Option Moment :=
  let cs := s.toList
  let negative := cs.head? = some '-'
  let cs := if negative ∨ cs.head? = some '+' then cs.tail else cs
  let number (ds : List Char) : Nat := ds.foldl (fun acc c => acc * 10 + (c.toNat - 48)) 0
  let whole := cs.takeWhile Char.isDigit
  let signed (n : Nat) : Int := if negative then -n else n
  if whole.isEmpty then none
  else
    match cs.dropWhile Char.isDigit with
    | [] => ofCount? (signed (number whole)) 0
    | '.' :: ds =>
      if ds.all Char.isDigit then
        let num := signed (number (whole ++ ds))
        let unit := Nat.pow 10 ds.length
        let den := if num.natAbs ≤ mostSeconds * unit then unit else 1000 * unit
        ofUtc? (num / den) (Binary64.roundDiv ((num % den).toNat * 1000000) den)
      else none
    | _ => none

def padded (width n : Nat) : String :=
  let ds := Nat.toDigits 10 n
  String.ofList (List.replicate (width - ds.length) '0' ++ ds)

/-- The date, the time of day and the offset, with a mark between date and time. -/
def format (mark : String) (t : Moment) : String :=
  let date := s!"{padded 4 t.year}-{padded 2 t.month}-{padded 2 t.day}"
  let time := s!"{padded 2 t.hour}:{padded 2 t.minute}:{padded 2 t.second}"
  let fraction := if t.micro = 0 then "" else "." ++ padded 6 t.micro
  let zone := match t.offset with
    | none => ""
    | some o =>
      (if o < 0 then "-" else "+") ++ padded 2 (o.natAbs / 60) ++ ":" ++ padded 2 (o.natAbs % 60)
  date ++ mark ++ time ++ fraction ++ zone

def iso (t : Moment) : String := t.format "T"

def text (t : Moment) : String := t.format " "

end Moment

end MetaFed
