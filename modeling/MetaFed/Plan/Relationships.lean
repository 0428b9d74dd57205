import MetaFed.Plan

/-!
Plans for relationship searches: one native search for each mapping of the type asked for. A
record may yield several relationships, so the catalog is not asked to page.
-/

namespace MetaFed

namespace Planner

variable (p : Planner)

def yieldConditions (m : RelationshipMapping) : List Node :=
  match m.kind with
  | .reference => [.compare m.one.navigationName .isNotNull .null]
  | _ => []

def yieldProperties (m : RelationshipMapping) : List String :=
  match m.kind with
  | .reference => [m.one.navigationName]
  | .level => m.levelProperties
  | .self => []

/-- The search of one mapping; none if no record can meet the conditions. -/
def relationshipSearch (m : RelationshipMapping) (folded : Folded) : Option NativeSearch :=
  if folded.isNever then none
  else
    some { types := [m.searchAssetType],
           conditions := { members := yieldConditions m ++ folded.conjuncts },
           properties := firsts (Record.nameProperty :: yieldProperties m),
           sorts := [.byId], relationshipMapping := some m }

def foldFor (properties : Option PropertyGroup) (m : RelationshipMapping) :
    Attempt (Option NativeSearch) := do
  let f ← PropertyGroup.foldOption (Resolver.through m.backendFor) properties
  .ok (relationshipSearch m f.folded)

def planRelationships (s : RelationshipSearch) (operation : Option String) :
    Attempt SearchPlan := do
  (checkRequest s.historical s.properties).within operation
  let ms ← (p.table.relationshipsFor s.type).within operation
  let searches ← ms.mapM (foldFor s.properties)
  .ok ⟨searches.filterMap id, s.window.pageSize, s.window.start⟩

def relationshipTextSearch (value : String) (reported : StringProperties)
    (m : RelationshipMapping) : Attempt (Option NativeSearch) :=
  let known := (Assoc.find? m.searchAssetType reported).getD []
  match (m.properties.map SimpleProperty.backend).filter known.contains with
  | [] => .ok none
  | paths => do .ok (relationshipSearch m (← anyMatches paths value))

def planRelationshipText (type : Option String) (value : String) (reported : StringProperties)
    (w : Window) (operation : Option String) : Attempt SearchPlan := do
  (checkText value).within operation
  let ms ← (p.table.relationshipsFor type).within operation
  let searches ← ms.mapM (relationshipTextSearch value reported)
  .ok ⟨searches.filterMap id, w.pageSize, w.start⟩

def levelAssetTypes (type operation : Option String) : Attempt (List String) := do
  let ms ← (p.table.relationshipsFor type).within operation
  .ok (firsts ((ms.filter RelationshipMapping.isLevel).map RelationshipMapping.searchAssetType))

end Planner

end MetaFed
