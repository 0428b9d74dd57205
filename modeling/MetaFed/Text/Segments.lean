/-!
Cutting a text at each occurrence of a separator, leftmost first, and joining pieces again.
A cut gives the first piece and the list of the others, so there is always a first one.
-/

namespace MetaFed.Text

/-- Pieces between the occurrences of one character. -/
def fields (sep : Char) : List Char → List Char × List (List Char)
  | [] => ([], [])
  | c :: r =>
    let (p, ps) := fields sep r
    if c = sep then ([], p :: ps) else (c :: p, ps)

/-- Pieces between the double colons. -/
def segments : List Char → List Char × List (List Char)
  | [] => ([], [])
  | ':' :: ':' :: r => ([], (segments r).1 :: (segments r).2)
  | c :: r => (c :: (segments r).1, (segments r).2)

/-- Pieces with a separator between each two. -/
def joined (sep : List Char) : List (List Char) → List Char
  | [] => []
  | [p] => p
  | p :: ps => p ++ sep ++ joined sep ps

def fieldsOf (sep : Char) (s : String) : List String :=
  let (p, ps) := fields sep s.toList
  (p :: ps).map String.ofList

def segmentsOf (s : String) : List String :=
  let (p, ps) := segments s.toList
  (p :: ps).map String.ofList

def joinedWith (sep : String) (ps : List String) : String :=
  String.ofList (joined sep.toList (ps.map String.toList))

def occursIn (part : List Char) : List Char → Bool
  | [] => part.isEmpty
  | c :: r => part.isPrefixOf (c :: r) || occursIn part r

end MetaFed.Text
