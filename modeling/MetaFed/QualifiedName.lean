import MetaFed.Text.LetterCase
import MetaFed.Text.Segments

/-!
Qualified names: a head, the names of a record's ancestors from the root on, and its own name,
with double colons between them. The head is the asset type in upper case, after the synthetic
prefix in lower case and an underscore where there is one.
-/

namespace MetaFed

/-- A qualified name taken apart. Of a partial one only the end is known, so its asset type is a
hint and its synthetic prefix is not known. -/
structure QualifiedName where
  assetType : String
  names : List String
  mark : Option String := none
  isPartial : Bool := false
  deriving DecidableEq, Repr

namespace QualifiedName

def headOf (assetType : String) (mark : Option String) : String :=
  match mark with
  | some m => if m = "" then Text.upper assetType else Text.lower m ++ "_" ++ Text.upper assetType
  | none => Text.upper assetType

def format (assetType : String) (names : List String) (mark : Option String) : String :=
  Text.joinedWith "::" (headOf assetType mark :: names)

def head (q : QualifiedName) : String :=
  headOf q.assetType q.mark

def leafName (q : QualifiedName) : String :=
  q.names.getLastD ""

def text (q : QualifiedName) : String :=
  format q.assetType q.names q.mark

def dropFinalNewline (cs : List Char) : List Char :=
  if cs.getLast? = some '\n' then cs.dropLast else cs

/-- A character of an asset type in a head, after its first one. -/
def isAssetChar (c : Char) : Bool :=
  c.isUpper || c.isDigit || c == '_'

/-- A character of a synthetic prefix in a head, after its first one. -/
def isMarkChar (c : Char) : Bool :=
  c.isLower || c.isDigit

def isAsset : List Char → Bool
  | [] => false
  | c :: cs => c.isUpper && cs.all isAssetChar

/-- Takes a head apart; a line feed that ends it is passed over. -/
def parseHead? (head : String) : Option (String × Option String) :=
  let cs := dropFinalNewline head.toList
  let m := cs.takeWhile isMarkChar
  match m, cs.dropWhile isMarkChar with
  | [], asset => if isAsset asset then some (lowered asset, none) else none
  | c :: _, '_' :: asset =>
    if c.isLower ∧ isAsset asset then some (lowered asset, some (String.ofList m)) else none
  | _, _ => none
where
  lowered (cs : List Char) : String := String.ofList (cs.map Char.toLower)

/-- Takes a qualified name apart, or the end of one. -/
def parse? (value : String) (isPartial : Bool) : Option QualifiedName :=
  let (h, ns) := Text.segments value.toList
  let names := ns.map String.ofList
  if names.isEmpty ∨ names.any (· = "") then none
  else
    (parseHead? (String.ofList h)).map fun (a, m) =>
      ⟨a, names, if isPartial then none else m, isPartial⟩

end QualifiedName

end MetaFed
