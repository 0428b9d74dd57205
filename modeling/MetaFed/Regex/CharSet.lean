import MetaFed.Text.Alphanumeric
import MetaFed.Text.CaseVariants

/-!
The sets of characters in expressions: ranges and classes, perhaps without regard to letter case,
perhaps with the classes and letters of ASCII only.
-/

namespace MetaFed

/-- Part of a character set; ranges are of code points. -/
inductive CharSet.Part where
  | range (low high : Nat)
  | decimal (inside : Bool)
  | blank (inside : Bool)
  | word (inside : Bool)
  deriving DecidableEq, Repr

structure CharSet where
  parts : List CharSet.Part
  negated : Bool := false
  /-- Letters stand for their other cases, too. -/
  foldCase : Bool := false
  /-- Classes and cases are those of ASCII. -/
  ascii : Bool := false
  deriving DecidableEq, Repr

namespace CharSet

def isDecimal (ascii : Bool) (c : Char) : Bool :=
  if ascii then c.isDigit else Text.isDecimal c

/-- White space among the characters of ASCII, apart from the separators. -/
def isAsciiBlank (c : Char) : Bool :=
  [' ', '\t', '\n', '\r', '\x0b', '\x0c'].contains c

def isBlank (ascii : Bool) (c : Char) : Bool :=
  if ascii then isAsciiBlank c else Text.isBlank c

def isWord (ascii : Bool) (c : Char) : Bool :=
  (if ascii then c.isAlphanum else Text.isAlphanumeric c) || c == '_'

/-- The characters that pass for a given one. -/
def forms (foldCase ascii : Bool) (c : Char) : List Char :=
  if foldCase then (if ascii then Text.asciiCaseVariants c else Text.caseVariants c) else [c]

/-- A part holds a character or, if it is a range, one that passes for it. -/
def Part.has (ascii : Bool) (forms : List Char) (c : Char) : Part → Bool
  | .range low high => forms.any fun d => decide (low ≤ d.toNat ∧ d.toNat ≤ high)
  | .decimal inside => isDecimal ascii c == inside
  | .blank inside => isBlank ascii c == inside
  | .word inside => isWord ascii c == inside

def has (s : CharSet) (c : Char) : Bool :=
  s.parts.any (Part.has s.ascii (forms s.foldCase s.ascii c) c) != s.negated

def single (c : Char) : CharSet := { parts := [.range c.toNat c.toNat] }

/-- All characters but the line feed. -/
def notNewline : CharSet := { single '\n' with negated := true }

def all : CharSet := { parts := [], negated := true }

/-- Two characters are equal, perhaps without regard to case. -/
def alike (foldCase ascii : Bool) (c d : Char) : Bool :=
  if foldCase then
    if ascii then c.toLower == d.toLower else Text.lowerOne c == Text.lowerOne d
  else c == d

end CharSet

end MetaFed
