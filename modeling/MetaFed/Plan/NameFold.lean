import MetaFed.Mapping.Entity
import MetaFed.Plan.Folding

/-!
Folding conditions on qualified names. The catalog has no qualified names, so a condition on one
becomes conditions on the names of a record's ancestors and its own. Where the number of ancestors
varies, or a part of a name spans a separator, only a condition that holds for more records can be
given, and it is marked as approximate.
-/

namespace MetaFed

namespace NameFold

def always : Folding := ⟨.const true, false⟩

def never : Folding := ⟨.const false, false⟩

/-- A condition that all comparisons hold. -/
def conjunction : List Node → Folded
  | [] => .const true
  | [n] => .node n
  | ns => .node (.all ns)

def name (operator : NativeOperator) (value : String) : Node :=
  .compare Record.nameProperty operator (.text value)

def along (path : String) (operator : NativeOperator) (value : String) : Node :=
  .compare path operator (.text value)

def namePaths (contextPaths : List String) : List String :=
  contextPaths ++ [Record.nameProperty]

def exact (m : EntityMapping) (literal : String) : Folding :=
  match QualifiedName.parse? literal false with
  | none => never
  | some q =>
    if q.head ≠ m.identityHead then never
    else
      match m.contextPaths with
      | none => ⟨.node (name .eq q.leafName), true⟩
      | some paths =>
        if q.names.length ≠ paths.length + 1 then never
        else
          ⟨conjunction ((paths.zip q.names).map (fun (p, n) => along p .eq n)
            ++ [name .eq q.leafName]), false⟩

/-- Comparisons of the first names with complete segments and of the next one with the start of
a segment; an empty last segment compares nothing. -/
def startsAlong : List String → List String → List Node
  | p :: _, [s] => if s = "" then [] else [along p .startsWith s]
  | p :: ps, s :: ss => along p .eq s :: startsAlong ps ss
  | _, _ => []

def startsWith (m : EntityMapping) (literal : String) : Folding :=
  let (h, ss) := Text.segments literal.toList
  let rest := ss.map String.ofList
  if rest = [] then
    if h.isPrefixOf m.identityHead.toList then always else never
  else if String.ofList h ≠ m.identityHead then never
  else
    match m.contextPaths with
    | none => ⟨.const true, rest ≠ [""]⟩
    | some paths =>
      if rest.length > paths.length + 1 then never
      else ⟨conjunction (startsAlong (namePaths paths) rest), false⟩

def equalAlong (paths segments : List String) : List Node :=
  (paths.zip segments).map fun (p, s) => along p .eq s

/-- Comparisons of the names after one whose end is a segment, the head of the qualified name
coming first where it is reached. -/
def endsAlong (m : EntityMapping) (paths : List String) (first : String) (rest : List String) :
    Folding :=
  let tail := equalAlong (paths.drop (paths.length - rest.length)) rest
  match paths.length - rest.length with
  | 0 =>
    if first.toList.isSuffixOf m.identityHead.toList then ⟨conjunction tail, false⟩ else never
  | n + 1 =>
    let start := if first = "" then [] else
      (paths[n]?.toList).map fun p => along p .endsWith first
    ⟨conjunction (start ++ tail), false⟩

def endsWith (m : EntityMapping) (literal : String) : Folding :=
  let (f, ss) := Text.segments literal.toList
  let rest := ss.map String.ofList
  if rest = [] then ⟨.node (name .endsWith literal), false⟩
  else
    match m.contextPaths with
    | none => ⟨.node (name .eq (rest.getLastD "")), true⟩
    | some paths =>
      if rest.length > paths.length + 1 then never
      else endsAlong m (namePaths paths) (String.ofList f) rest

def contains (m : EntityMapping) (literal : String) : Folding :=
  match m.contextPaths with
  | none => ⟨.const true, true⟩
  | some paths =>
    if Text.occursIn "::".toList literal.toList then ⟨.const true, true⟩
    else if Text.occursIn literal.toList m.identityHead.toList then always
    else
      match (namePaths paths).map (along · .contains literal) with
      | [n] => ⟨.node n, false⟩
      | ns => ⟨.node (.any ns), false⟩

/-- What a comparison of the qualified name with a literal comes to. -/
def fold (m : EntityMapping) : SearchPattern → Folding
  | .literal .exact l => exact m l
  | .literal .startsWith l => startsWith m l
  | .literal .endsWith l => endsWith m l
  | .literal .contains l => contains m l
  | .general => never

end NameFold

end MetaFed
