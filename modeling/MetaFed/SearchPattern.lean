import MetaFed.Failure
import MetaFed.Regex.Reader
import MetaFed.Text.Alphanumeric

/-!
Search patterns. Callers state text matches as regular expressions, and the catalog compares with
literals only. A pattern is literal if it is a text with `.*` before or after it or both, the text
standing between `\Q` and `\E` or having its metacharacters escaped; one anchor at either end is
ignored. Every other pattern is a general regular expression.
-/

namespace MetaFed

inductive LiteralKind where
  | exact
  | startsWith
  | endsWith
  | contains
  deriving DecidableEq, Repr

inductive SearchPattern where
  | literal (kind : LiteralKind) (text : String)
  | general
  deriving DecidableEq, Repr

namespace LiteralKind

/-- The kind of a literal with or without `.*` before and after it. -/
def of (lead trail : Bool) : LiteralKind :=
  match lead, trail with
  | true, true => .contains
  | true, false => .endsWith
  | false, true => .startsWith
  | false, false => .exact

def holds (kind : LiteralKind) (literal text : List Char) : Bool :=
  match kind with
  | .exact => text == literal
  | .startsWith => literal.isPrefixOf text
  | .endsWith => literal.isSuffixOf text
  | .contains => Text.occursIn literal text

end LiteralKind

namespace SearchPattern

def metacharacters : List Char :=
  ['.', '^', '$', '*', '+', '?', '(', ')', '[', ']', '\x7b', '\x7d', '|', '\\']

/-- The text an expression without live metacharacters stands for. A backslash makes any
character but a letter or a number stand for itself. -/
def unescape? : List Char → Option (List Char)
  | [] => some []
  | '\\' :: [] => none
  | '\\' :: c :: r => if Text.isAlphanumeric c then none else (unescape? r).map (c :: ·)
  | c :: r => if c ∈ metacharacters then none else (unescape? r).map (c :: ·)

/-- The text before the first `\E`, and what follows it. -/
def upToQuoteEnd? : List Char → Option (List Char × List Char)
  | [] => none
  | '\\' :: 'E' :: r => some ([], r)
  | c :: r => (upToQuoteEnd? r).map fun (l, t) => (c :: l, t)

/-- Whether `.*` follows the quoted text; a final line feed is passed over. -/
def quotedTail? (t : List Char) : Option Bool :=
  if t = [] ∨ t = ['\n'] then some false
  else if t = ['.', '*'] ∨ t = ['.', '*', '\n'] then some true
  else none

def splitLead : List Char → Bool × List Char
  | '.' :: '*' :: r => (true, r)
  | r => (false, r)

/-- A body whose text stands between `\Q` and the first `\E`. -/
def quoted? (body : List Char) : Option (LiteralKind × List Char) :=
  match splitLead body with
  | (lead, '\\' :: 'Q' :: r) => do
    let (l, t) ← upToQuoteEnd? r
    let trail ← quotedTail? t
    some (LiteralKind.of lead trail, l)
  | _ => none

/-- A trailing `.*` whose point is not escaped, cut off. -/
def splitTrail (body : List Char) : Bool × List Char :=
  if ['.', '*'].isSuffixOf body ∧ ¬ ['\\', '.', '*'].isSuffixOf body then
    (true, body.dropLast.dropLast)
  else (false, body)

/-- A body whose text has its metacharacters escaped. -/
def plain? (body : List Char) : Option (LiteralKind × List Char) := do
  let (lead, r) := splitLead body
  let (trail, r) := splitTrail r
  let l ← unescape? r
  some (LiteralKind.of lead trail, l)

def dropStartAnchor : List Char → List Char
  | '^' :: r => r
  | r => r

/-- An expression without an unescaped anchor at its end. -/
def dropEndAnchor (cs : List Char) : List Char :=
  if ['$'].isSuffixOf cs ∧ ¬ ['\\', '$'].isSuffixOf cs then cs.dropLast else cs

def literal? (cs : List Char) : Option (LiteralKind × List Char) :=
  let body := dropEndAnchor (dropStartAnchor cs)
  quoted? body <|> plain? body

def classify (value : String) : SearchPattern :=
  match literal? value.toList with
  | some (kind, l) => .literal kind (String.ofList l)
  | none => .general

/-- The expression that quotes a literal. -/
def build (kind : LiteralKind) (literal : String) : String :=
  let q := "\\Q" ++ literal ++ "\\E"
  match kind with
  | .exact => q
  | .startsWith => q ++ ".*"
  | .endsWith => ".*" ++ q
  | .contains => ".*" ++ q ++ ".*"

def isLiteral : SearchPattern → Bool
  | .literal .. => true
  | .general => false

def matchesText (value text : String) : Attempt Bool :=
  match classify value with
  | .literal kind l => .ok (kind.holds l.toList text.toList)
  | .general =>
    match Regex.read value.toList with
    | .ok r => .ok (r.matchesAll text.toList)
    | .error t => stop (.badPattern t)

end SearchPattern

end MetaFed
