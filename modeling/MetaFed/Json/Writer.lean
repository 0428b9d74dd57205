import MetaFed.Number.Shortest
import MetaFed.Value

/-!
Writing values as JSON text in ASCII: any other character is the escape of its UTF-16 units. A
point in time is an object with its ISO text under `$datetime`, a reference one with its fields
under `$reference`.
-/

namespace MetaFed.Json

def unitEscape (n : Nat) : List Char :=
  let ds := Nat.toDigits 16 n
  '\\' :: 'u' :: List.replicate (4 - ds.length) '0' ++ ds

/-- The escape of a character, as one code unit or as a surrogate pair. -/
def unicodeEscape (c : Char) : List Char :=
  let n := c.toNat
  if n < 0x10000 then unitEscape n
  else
    let m := n - 0x10000
    unitEscape (0xD800 + m / 0x400) ++ unitEscape (0xDC00 + m % 0x400)

def escaped (c : Char) : List Char :=
  if c = '"' then ['\\', '"']
  else if c = '\\' then ['\\', '\\']
  else if c.toNat < 32 ∨ 126 < c.toNat then unicodeEscape c
  else [c]

def string (s : String) : String :=
  String.ofList ('"' :: s.toList.flatMap escaped ++ ['"'])

def object (es : List (String × String)) : String :=
  "\x7b" ++ String.intercalate "," (es.map fun (k, v) => string k ++ ":" ++ v) ++ "\x7d"

def array (xs : List String) : String :=
  "[" ++ String.intercalate "," xs ++ "]"

def reference (r : Reference) : String :=
  object [("$reference", object [("_id", string r.id), ("_type", string r.type),
    ("_name", (r.name.map string).getD "null")])]

mutual

def write : Value → String
  | .null => "null"
  | .bool b => if b then "true" else "false"
  | .int i => toString i
  | .real x => x.text
  | .text s => string s
  | .list xs => array (writeItems xs)
  | .dict es => object (writeEntries es)
  | .moment t => object [("$datetime", string t.iso)]
  | .reference r => reference r

def writeItems : List Value → List String
  | [] => []
  | x :: xs => write x :: writeItems xs

def writeEntries : List (String × Value) → List (String × String)
  | [] => []
  | (k, v) :: es => (k, write v) :: writeEntries es

end

end MetaFed.Json
