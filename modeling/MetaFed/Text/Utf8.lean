/-!
UTF-8. Reading never fails: a byte sequence that is not well formed is replaced, one
replacement character for each longest start of a well-formed sequence.
-/

namespace MetaFed.Text.Utf8

def encodeChar (c : Char) : List Nat :=
  let n := c.toNat
  if n < 0x80 then [n]
  else if n < 0x800 then [0xC0 + n / 64, 0x80 + n % 64]
  else if n < 0x10000 then [0xE0 + n / 4096, 0x80 + n / 64 % 64, 0x80 + n % 64]
  else [0xF0 + n / 262144, 0x80 + n / 4096 % 64, 0x80 + n / 64 % 64, 0x80 + n % 64]

def encode (s : List Char) : List Nat :=
  s.flatMap encodeChar

/-- Stands for bytes that spell no character. -/
def replacement : Char := '\uFFFD'

/-- The start of a sequence: the bits so far, how many bytes are owed after the next one, and
the bounds of the next one. -/
structure Pending where
  bits : Nat
  owed : Nat
  low : Nat := 0x80
  high : Nat := 0xBF
  deriving DecidableEq, Repr

/-- What a first byte starts: a whole character, or a longer sequence. -/
def first (b : Nat) : Char ⊕ Pending :=
  if b < 0x80 then .inl (Char.ofNat b)
  else if b < 0xC2 then .inl replacement
  else if b < 0xE0 then .inr ⟨b - 0xC0, 0, 0x80, 0xBF⟩
  else if b = 0xE0 then .inr ⟨0, 1, 0xA0, 0xBF⟩
  else if b = 0xED then .inr ⟨0xD, 1, 0x80, 0x9F⟩
  else if b < 0xF0 then .inr ⟨b - 0xE0, 1, 0x80, 0xBF⟩
  else if b = 0xF0 then .inr ⟨0, 2, 0x90, 0xBF⟩
  else if b < 0xF4 then .inr ⟨b - 0xF0, 2, 0x80, 0xBF⟩
  else if b = 0xF4 then .inr ⟨4, 2, 0x80, 0x8F⟩
  else .inl replacement

/-- One byte: the characters that are settled by it, and what is pending after it. -/
def step (p : Option Pending) (b : Nat) : List Char × Option Pending :=
  match p with
  | none => start b
  | some p =>
    if p.low ≤ b ∧ b ≤ p.high then
      let bits := p.bits * 64 + (b - 0x80)
      if p.owed = 0 then ([Char.ofNat bits], none)
      else ([], some ⟨bits, p.owed - 1, 0x80, 0xBF⟩)
    else (replacement :: (start b).1, (start b).2)
where
  start (b : Nat) : List Char × Option Pending :=
    match first b with
    | .inl c => ([c], none)
    | .inr q => ([], some q)

def decodeFrom (p : Option Pending) : List Nat → List Char
  | [] => if p.isSome then [replacement] else []
  | b :: bs => (step p b).1 ++ decodeFrom (step p b).2 bs

def decode (bs : List Nat) : List Char :=
  decodeFrom none bs

end MetaFed.Text.Utf8
