import MetaFed.Plan
import MetaFed.Plan.NameFold
import MetaFed.Request.Matching

/-!
Plans for entity searches: one native search for each mapping that the request concerns. A request
with a lone condition on the qualified name may tell the mapping by the head of the name, and then
the other mappings are not searched.
-/

namespace MetaFed

namespace Planner

variable (p : Planner)

def namePattern? (c : PropertyCondition) : Option SearchPattern :=
  match c.operator, c.value with
  | .eq, .text v => some (.literal .exact v)
  | .like, .text v => some (SearchPattern.classify v)
  | _, _ => none

def literalText : SearchPattern → String
  | .literal _ l => l
  | .general => ""

/-- The condition of a request that has no other and asks for its truth. -/
def loneCondition? (g : Option PropertyGroup) : Option PropertyCondition :=
  match g with
  | some ⟨[.leaf c], .all⟩ => some c
  | some ⟨[.leaf c], .any⟩ => some c
  | _ => none

def loneName? (g : Option PropertyGroup) : Option (LiteralKind × String) := do
  let c ← loneCondition? g
  if c.property ≠ qualifiedNameProperty then none
  else
    match ← namePattern? c with
    | .literal kind l => some (kind, l)
    | .general => none

/-- The mappings that can have an entity of such a qualified name, if the name tells. -/
def owners? (kind : LiteralKind) (literal : String) : Option (List EntityMapping) :=
  match kind with
  | .exact =>
    (QualifiedName.parse? literal false).map fun q =>
      (p.table.forIdentity q.assetType q.mark).toList
  | .endsWith =>
    match QualifiedName.parse? literal true with
    | some q =>
      match p.table.forAsset q.assetType with
      | [] => none
      | ms => some ms
    | none => none
  | .startsWith =>
    match Text.segments literal.toList with
    | (_, []) => none
    | (h, _ :: _) =>
      (QualifiedName.parseHead? (String.ofList h)).map fun (a, m) =>
        (p.table.forIdentity a m).toList
  | .contains => none

def accepts (s : EntitySearch) (m : EntityMapping) : Bool :=
  p.table.isEligible m s.within &&
    s.type.all fun n => p.table.hierarchy.isTypeOf m.abstractType n

/-- The mappings a lone condition on the qualified name leads to, if it tells. -/
def shortcut? (s : EntitySearch) : Attempt (Option (List EntityMapping)) :=
  match loneName? s.properties with
  | none => .ok none
  | some (kind, l) => do
    -- Names are refused as in an expansion, although none is made here.
    p.table.checkTypes (s.type.toList ++ s.within)
    if p.isForeign l then .ok (some [])
    else .ok ((p.owners? kind l).map fun ms => ms.filter (p.accepts s))

def candidates (s : EntitySearch) : Attempt (List EntityMapping) := do
  match ← p.shortcut? s with
  | some ms => .ok ms
  | none => p.table.expand s.type s.within

def foldName (m : EntityMapping) : Resolver := fun c conjunctive =>
  match c.operator, namePattern? c with
  | .notNull, _ => .ok NameFold.always
  | .isNull, _ => .ok NameFold.never
  | _, none => refuse (.functionNotSupported (.operatorOn c.operator.word c.property))
  | _, some pattern =>
    if p.isForeign (literalText pattern) then .ok NameFold.never
    else
      let f := NameFold.fold m pattern
      if f.approximate ∧ ¬ conjunctive then
        refuse (.functionNotSupported (.approximation m.abstractType c.value.asText))
      else .ok f

def resolver (m : EntityMapping) : Resolver := fun c conjunctive =>
  match m.simpleFor c.property, m.complexFor c.property with
  | some s, _ => do .ok ⟨.node (.leaf (← c.compile s.backend)), false⟩
  | none, none => .ok (Resolver.unmapped c)
  | none, some x =>
    match x.kind with
    | .literal => do .ok ⟨.const (← c.operator.holds x.literal c.value), false⟩
    | .referenceName =>
      match x.searchPath with
      | some path => do .ok ⟨.node (.leaf (← c.compile path)), false⟩
      | none => .ok (Resolver.unmapped c)
    | .qualifiedName => p.foldName m c conjunctive

def presence (c : ClassificationMapping) : Node :=
  match c.signal with
  | .equals => .compare c.backend .eq c.value
  | .present => .compare c.backend .isNotNull .null

def foldClassification (m : EntityMapping) (c : ClassificationCondition) : Attempt Folded := do
  p.table.checkClassification c.name
  match m.classificationFor c.name with
  | none => .ok (.const false)
  | some k =>
    match (← PropertyGroup.foldOption (Resolver.through k.backendFor) c.properties).folded with
    | .const false => .ok (.const false)
    | .const true => .ok (.node (.all [presence k]))
    | .node n => .ok (.node (.all [presence k, n]))

def foldClassifications (m : EntityMapping) (g : Option ClassificationGroup) : Attempt Folded :=
  match g with
  | none => .ok (.const true)
  | some g =>
    if g.members.isEmpty then .ok (.const true)
    else do .ok (Folded.combine g.criteria (← g.members.mapM (p.foldClassification m)))

def timeKey? : Sequencing → Option SortKey
  | .creationRecent => some ⟨Record.createdProperty, false⟩
  | .creationOldest => some ⟨Record.createdProperty, true⟩
  | .updateRecent => some ⟨Record.modifiedProperty, false⟩
  | .updateOldest => some ⟨Record.modifiedProperty, true⟩
  | _ => none

/-- The sort keys of a window; records that a key leaves equal are ordered by their ids. -/
def sortKeys (m : EntityMapping) (w : Window) : Attempt (List SortKey) :=
  match w.order.bind timeKey?, w.property with
  | some k, _ => .ok [k, .byId]
  | none, none => .ok [.byId]
  | none, some property =>
    match m.simpleFor property with
    | some s => .ok [⟨s.backend, w.order ≠ some .propertyDescending⟩, .byId]
    | none => refuse (.functionNotSupported (.sequencing m.abstractType property))

/-- The conditions of a search: those of the mapping, of the properties and of the
classifications. -/
def whereClause (m : EntityMapping) (folded classified : Folded) : ConditionSet :=
  { members := m.typeConditions.map .leaf ++ folded.conjuncts ++ Folded.nodes [classified] }

/-- The search of one mapping; none if no record can meet the conditions. -/
def assemble (m : EntityMapping) (folded : Folded) (classifications : Option ClassificationGroup)
    (w : Window) : Attempt (Option NativeSearch) :=
  if folded.isNever then .ok none
  else do
    let classified ← p.foldClassifications m classifications
    if classified.isNever then .ok none
    else
      let sorts ← sortKeys m w
      .ok (some { types := [m.assetType], conditions := whereClause m folded classified,
                  properties := m.projected, sorts, mapping := some m })

/-- The search of one mapping for a request; approximated conditions are left to be checked. -/
def entitySearch (s : EntitySearch) (m : EntityMapping) : Attempt (Option NativeSearch) := do
  let f ← PropertyGroup.foldOption (p.resolver m) s.properties
  let search ← p.assemble m f.folded s.classifications s.window
  .ok (search.map fun n => if f.approximate then { n with residual := s.properties } else n)

/-- Searches cut to the leading results that can be needed. -/
def fanOut (searches : List NativeSearch) (w : Window) : SearchPlan :=
  -- Hits may still fail a residual, so that none of them can be spared.
  ⟨searches.map fun s =>
    { s with start := 0, pageSize := if s.residual.isSome then 0 else w.needed },
    w.pageSize, w.start⟩

/-- The plan of some searches; the catalog itself pages a single search without residual. -/
def planOf (searches : List NativeSearch) (w : Window) : SearchPlan :=
  match searches with
  | [s] =>
    if s.residual.isSome then fanOut [s] w
    -- The window is the catalog's alone then: the plan must not skip again.
    else ⟨[{ s with start := w.start, pageSize := w.pageSize }], w.pageSize, 0⟩
  | ss => fanOut ss w

def planEntities (s : EntitySearch) (operation : Option String) : Attempt SearchPlan := do
  (checkRequest s.historical s.properties).within operation
  let ms ← (p.candidates s).within operation
  let searches ← ms.mapM (p.entitySearch s)
  .ok (planOf (searches.filterMap id) s.window)

/-- The conditions a free-text value stands for, if it is a qualified name or the end of one. -/
def rerouted? (value : String) : Attempt (Option PropertyGroup) := do
  checkText value
  let l := literalText (SearchPattern.classify value)
  if p.isForeign l ∨ (QualifiedName.parse? l true).isSome then
    .ok (some (.single ⟨qualifiedNameProperty, .like, .text value⟩))
  else .ok none

/-- The catalog properties of a mapping that a free-text search goes through. -/
def textPaths (m : EntityMapping) (reported excluded : List String) : List String :=
  (m.simple.map SimpleProperty.backend).filter
      (fun b => reported.contains b && !excluded.contains b)
    ++ m.complex.filterMap ComplexProperty.searchPath

/-- The free-text search of one mapping; none if it has no property to search. -/
def textSearch (s : EntitySearch) (value : String) (reported : StringProperties)
    (excluded : List String) (m : EntityMapping) : Attempt (Option NativeSearch) :=
  match textPaths m ((Assoc.find? m.assetType reported).getD []) excluded with
  | [] => .ok none
  | paths => do
    let f ← anyMatches paths value
    p.assemble m f s.classifications s.window

/-- The plan of a free-text search in a release of the catalog, on behalf of an operation. -/
def planText (s : EntitySearch) (value : String) (reported : StringProperties)
    (version operation : Option String) : Attempt SearchPlan := do
  (checkPresent s.historical).within operation
  (checkText value).within operation
  let excluded := (Assoc.find? (version.getD "") p.exclusions).getD []
  let ms ← (p.candidates s).within operation
  let searches ← ms.mapM (p.textSearch s value reported excluded)
  .ok (planOf (searches.filterMap id) s.window)

end Planner

end MetaFed
