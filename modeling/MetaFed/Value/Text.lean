import MetaFed.Number.Shortest
import MetaFed.Text.Quoted
import MetaFed.Text.Segments
import MetaFed.Value

/-!
Text of a value, as pattern matches and listings see it. A text is its own text; inside a list or
a dictionary it is quoted.
-/

namespace MetaFed

def quotedOption : Option String → String
  | some s => Text.quoted s
  | none => "None"

/-- Fields of a reference with a separator between each two. -/
def Reference.fieldText (sep : String) (r : Reference) : String :=
  Text.joinedWith sep
    ["id=" ++ Text.quoted r.id, "type=" ++ Text.quoted r.type, "name=" ++ quotedOption r.name]

namespace Value

mutual

/-- Text of a value inside a list or a dictionary. -/
def inner : Value → String
  | .null => "None"
  | .bool b => if b then "True" else "False"
  | .int i => toString i
  | .real x => x.text
  | .text s => Text.quoted s
  | .list xs => "[" ++ Text.joinedWith ", " (innerItems xs) ++ "]"
  | .dict es => "\x7b" ++ Text.joinedWith ", " (innerEntries es) ++ "\x7d"
  | .moment t => t.text
  | .reference r => "Reference(" ++ r.fieldText ", " ++ ")"

def innerItems : List Value → List String
  | [] => []
  | x :: xs => inner x :: innerItems xs

def innerEntries : List (String × Value) → List String
  | [] => []
  | (k, v) :: es => (Text.quoted k ++ ": " ++ inner v) :: innerEntries es

end

/-- Text of a value on its own. -/
def asText : Value → String
  | .text s => s
  | .reference r => r.fieldText " "
  | v => v.inner

end Value

end MetaFed
