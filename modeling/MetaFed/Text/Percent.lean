import MetaFed.Text.Utf8

/-!
Percent escapes over UTF-8. Letters, digits and `_.-~` stand for themselves, every other byte
is written `%` and two upper-case hexadecimal digits. Reading accepts digits of either case,
leaves what is no escape as it is, and never joins bytes across a character that is not ASCII.
-/

namespace MetaFed.Text.Percent

def isUnreserved (c : Char) : Bool :=
  c.isAlphanum || c == '_' || c == '.' || c == '-' || c == '~'

/-- Hexadecimal digit of a number below sixteen, in upper case. -/
def hexDigit (n : Nat) : Char :=
  if n < 10 then Char.ofNat (48 + n) else Char.ofNat (55 + n)

def escapeByte (b : Nat) : List Char :=
  if b < 128 ∧ isUnreserved (Char.ofNat b) then [Char.ofNat b]
  else ['%', hexDigit (b / 16), hexDigit (b % 16)]

def escape (s : List Char) : List Char :=
  (Utf8.encode s).flatMap escapeByte

/-- Value of a hexadecimal digit of either case. -/
def hexValue? (c : Char) : Option Nat :=
  if '0' ≤ c ∧ c ≤ '9' then some (c.toNat - 48)
  else if 'A' ≤ c ∧ c ≤ 'F' then some (c.toNat - 55)
  else if 'a' ≤ c ∧ c ≤ 'f' then some (c.toNat - 87)
  else none

/-- What written form spells: bytes, and characters that take no part in UTF-8 reading. -/
inductive Piece where
  | byte (b : Nat)
  | char (c : Char)
  deriving DecidableEq, Repr

/-- A character outside an escape: a byte if it is ASCII. -/
def plain (c : Char) : Piece :=
  if c.toNat < 128 then .byte c.toNat else .char c

def pieces : List Char → List Piece
  | [] => []
  | '%' :: a :: b :: r =>
    match hexValue? a, hexValue? b with
    | some x, some y => .byte (16 * x + y) :: pieces r
    | _, _ => .byte 37 :: pieces (a :: b :: r)
  | c :: r => plain c :: pieces r

/-- Reads pieces from a pending UTF-8 start; a character ends the run of bytes before it. -/
def decodeFrom (p : Option Utf8.Pending) : List Piece → List Char
  | [] => if p.isSome then [Utf8.replacement] else []
  | .byte b :: ps => (Utf8.step p b).1 ++ decodeFrom (Utf8.step p b).2 ps
  | .char c :: ps => (if p.isSome then [Utf8.replacement] else []) ++ c :: decodeFrom none ps

def unescape (s : List Char) : List Char :=
  decodeFrom none (pieces s)

end MetaFed.Text.Percent
