import MetaFed.Proofs.Answered
import MetaFed.Proofs.Classified
import MetaFed.Proofs.Reading

/-!
Free-text searches. The catalog compares a literal with the properties of a record that it reports
to hold texts, and with the names of records referred to. Where these are texts indeed, the search
answers just the entities of which the federation reads a property that matches.
-/

namespace MetaFed

namespace Value

/-- The members of a list, or one value, or none. -/
def members : Value → List Value
  | .null => []
  | .list vs => vs
  | v => [v]

def isText : Value → Bool
  | .text _ => true
  | _ => false

/-- The value, or one member of a list, matches a search pattern. -/
def isLike (v : Value) (pattern : String) : Bool :=
  PropertyOperator.like.holds v (.text pattern) matches .ok true

theorem members_namesValue (refs : List Reference) :
    (Record.namesValue refs).members =
      ((refs.filterMap Reference.name).filter (· ≠ "")).map .text := by
  rw [Record.namesValue]
  split
  · next h => rw [h]; rfl
  · next h => rw [h]; rfl
  · rfl

end Value

theorem Catalog.valuesOf_eq (property : String) (r : Record) :
    valuesOf property r = (r.value property).members := by
  rw [valuesOf]
  cases r.value property <;> rfl

theorem SearchPattern.matchesText_of_literal {kind : LiteralKind} {p l : String}
    (hp : classify p = .literal kind l) (text : String) :
    matchesText p text = .ok (kind.holds l.toList text.toList) := by
  rw [matchesText, hp]

namespace PropertyOperator

variable {kind : LiteralKind} {p l : String} {v : Value} {vs : List Value}

theorem holdsFor_text (hp : SearchPattern.classify p = .literal kind l) {v : Value}
    (hv : v.isText = true) :
    kind.native.holdsFor v (.text l) = .ok (kind.holds l.toList v.asText.toList) := by
  cases v with
  | text s =>
      obtain ⟨b, hb⟩ : ∃ b, kind.native.holdsFor (.text s) (.text l) = .ok b := by
        cases kind <;> exact ⟨_, rfl⟩
      rw [hb, ← SearchPattern.matchesText_of_literal hp, matchesText_literal hp rfl hb]
      exact congrArg Except.ok (Bool.xor_false b).symm
  | _ => cases hv

theorem native_holds_texts (hp : SearchPattern.classify p = .literal kind l)
    (hv : ∀ v ∈ vs, v.isText = true) :
    kind.native.holds vs (.text l) = .ok (vs.any fun v => kind.holds l.toList v.asText.toList) := by
  have hall : (vs.anyM fun v => kind.native.holdsFor v (.text l)) =
      .ok (vs.any fun v => kind.holds l.toList v.asText.toList) := by
    induction vs with
    | nil => rfl
    | cons v vs ih =>
        rw [List.anyM, holdsFor_text hp (hv v List.mem_cons_self), List.any_cons, Attempt.ok_bind,
          ih fun w hw => hv w (List.mem_cons_of_mem v hw)]
        cases kind.holds l.toList v.asText.toList <;> rfl
  cases vs with
  | nil => cases kind <;> rfl
  | cons v vs =>
      rw [← hall]
      cases kind <;> rfl

theorem isLike_literal (hp : SearchPattern.classify p = .literal kind l) (v : Value) :
    v.isLike p = v.members.any fun w => kind.holds l.toList w.asText.toList := by
  have hone := SearchPattern.matchesText_of_literal hp
  have hlike (b : Bool) (h : PropertyOperator.like.holds v (.text p) = .ok b) : v.isLike p = b := by
    rw [Value.isLike, h]
    cases b <;> rfl
  refine hlike _ ?_
  cases v with
  | null => rfl
  | list vs =>
      change (vs.anyM fun w => SearchPattern.matchesText p w.asText) = _
      simp only [hone]
      exact List.anyM_pure
  | _ =>
      rw [holds, matchesPattern_text (by rintro _ ⟨⟩) rfl, hone]
      exact congrArg Except.ok (Bool.or_false _).symm

/-- The catalog finds a literal among the texts of a property if the federation does. -/
theorem native_holds_members (hp : SearchPattern.classify p = .literal kind l)
    (hv : ∀ w ∈ v.members, w.isText = true) :
    kind.native.holds v.members (.text l) = .ok (v.isLike p) := by
  rw [native_holds_texts hp hv, isLike_literal hp]

end PropertyOperator

/-- The catalog has the record that is referred to, under the name that the reference gives. -/
def Catalog.Knows (cat : Catalog) (ref : Reference) : Prop :=
  ∃ n r, ref.name = some n ∧ n ≠ "" ∧ cat.find? ref.id = some r ∧
    r.value Record.nameProperty = .text n

/-- The properties that the catalog reports hold texts, if anything, and the names of entities of
other records are told by references to these. -/
structure Catalog.Textual (cat : Catalog) (t : MappingTable) : Prop where
  reported : ∀ r ∈ cat.records.values, ∀ p ∈ cat.reported r.type,
    ∀ v ∈ (r.value p).members, v.isText = true
  named : ∀ m ∈ MappingTable.backed t.mappings, ∀ x ∈ m.complex, x.kind = .referenceName →
    ∀ b ∈ x.backend, ∀ r ∈ cat.records.values, r.type = m.assetType →
      ∃ refs, r.references b = .ok refs ∧ ∀ ref ∈ refs, cat.Knows ref

/-- Properties are copied from properties of a record, and the names of other records are told by
a property of it. -/
structure EntityMapping.Direct (m : EntityMapping) : Prop where
  copied : ∀ x ∈ m.simple, '.' ∉ x.backend.toList
  named : ∀ x ∈ m.complex, x.kind = .referenceName →
    ∃ b ∈ x.backend, b ≠ "" ∧ '.' ∉ b.toList

theorem MappingTable.direct_standard : ∀ m ∈ backed standard.mappings, m.Direct := by
  have hcopied : ∀ m ∈ backed Standard.mappings, ∀ x ∈ m.simple, '.' ∉ x.backend.toList := by
    decide +kernel
  have hnamed : ∀ m ∈ backed Standard.mappings, ∀ x ∈ m.complex, x.kind = .referenceName →
      ∃ b ∈ x.backend, b ≠ "" ∧ '.' ∉ b.toList := by
    decide +kernel
  exact fun m hm => ⟨hcopied m hm, hnamed m hm⟩

namespace EntityMapping

variable {m : EntityMapping} {cat : Catalog} {t : MappingTable} {r : Record} {e : Entity}
  {reported excluded : List String}

/-- The copied properties that a free-text search goes through. -/
def copiedTexts (m : EntityMapping) (reported excluded : List String) : List SimpleProperty :=
  m.simple.filter fun x => reported.contains x.backend && !excluded.contains x.backend

/-- The properties that are the names of other records. -/
def namedTexts (m : EntityMapping) : List ComplexProperty :=
  m.complex.filter (·.kind = .referenceName)

/-- The properties of the mapping's entities that a free-text search goes through. -/
def textProperties (m : EntityMapping) (reported excluded : List String) : List String :=
  (m.copiedTexts reported excluded).map SimpleProperty.abstract
    ++ m.namedTexts.map ComplexProperty.abstract

/-- What a record has for the properties that a free-text search goes through. -/
def textValues (m : EntityMapping) (reported excluded : List String) (r : Record) : List Value :=
  (m.copiedTexts reported excluded).map (fun x => r.value x.backend)
    ++ m.namedTexts.map fun x => (r.complexValue x m.mark).toOption.getD .null

theorem map_read_textProperties (hn : m.abstractProperties.Nodup) (hd : m.Direct) {home : String}
    (he : Entity.ofRecord home m (r.project m.projected) = .ok e) :
    (m.textProperties reported excluded).map e.read = m.textValues reported excluded r := by
  have hgiven : m.NamesGiven := fun x hx hk hb => by
    obtain ⟨b, hmem, hne, _⟩ := hd.named x hx hk
    exact hne (Option.some.inj (hmem.symm.trans hb))
  have hagree := (r.agreesOn_project m.projected).mono (Q := (· ∈ m.reads)) fun p hp =>
    mem_projected_of_reads hp (.inl hgiven)
  rw [textProperties, textValues, List.map_append, List.map_map, List.map_map]
  congr 1
  · refine List.map_congr_left fun x hx => ?_
    have hx := (List.mem_filter.1 hx).1
    refine (Entity.read_of_mem_simple hn hx he).trans (hagree.value ?_)
    exact List.mem_append_left _ (List.mem_append_left _ (List.mem_map_of_mem hx))
  · refine List.map_congr_left fun x hx => ?_
    have hx := (List.mem_filter.1 hx).1
    have hreads (p : String) (hp : p ∈ x.reads) : p ∈ m.reads :=
      List.mem_append_left _ (List.mem_append_right _ (List.mem_flatMap.2 ⟨x, hx, hp⟩))
    rw [← hagree.complexValue hreads, Entity.read_of_mem_complex hn hx he]
    rfl

end EntityMapping

namespace Catalog

variable {cat : Catalog} {m : EntityMapping} {t : MappingTable} {r : Record} {kind : LiteralKind}
  {p l b : String} {reported excluded : List String}

theorem valuesOf_found {refs : List Reference} (hk : ∀ ref ∈ refs, cat.Knows ref) :
    (refs.filterMap fun x => cat.find? x.id).flatMap (valuesOf Record.nameProperty) =
      (Record.namesValue refs).members := by
  rw [Value.members_namesValue]
  induction refs with
  | nil => rfl
  | cons ref refs ih =>
      obtain ⟨n, r, hname, hne, hfind, hvalue⟩ := hk ref List.mem_cons_self
      have hvalues : valuesOf Record.nameProperty r = [.text n] := by
        rw [valuesOf_eq, hvalue]
        rfl
      simp only [List.filterMap_cons, hfind, hname]
      rw [List.flatMap_cons, hvalues, ih fun ref' h => hk ref' (List.mem_cons_of_mem ref h),
        List.filter_cons_of_pos (by simpa using hne)]
      rfl

theorem holds_copied (hp : SearchPattern.classify p = .literal kind l) (hb : '.' ∉ b.toList)
    (ht : ∀ v ∈ (r.value b).members, v.isText = true) :
    (Node.compare b kind.native (.text l)).holds (cat.holds r) = .ok ((r.value b).isLike p) := by
  rw [holds_compare hb, valuesOf_eq]
  exact PropertyOperator.native_holds_members hp ht

theorem holds_names (hp : SearchPattern.classify p = .literal kind l) (hb : '.' ∉ b.toList)
    {refs : List Reference} (hr : r.references b = .ok refs)
    (hk : ∀ ref ∈ refs, cat.Knows ref) :
    (Node.compare (b ++ "." ++ Record.nameProperty) kind.native (.text l)).holds (cat.holds r) =
      .ok ((Record.namesValue refs).isLike p) := by
  rw [holds_compare_along, valuesAlong_step hb (by decide) hr, valuesOf_found hk]
  refine PropertyOperator.native_holds_members hp ?_
  rw [Value.members_namesValue]
  exact List.forall_mem_map.2 fun _ _ => rfl

theorem filterMap_searchPath (hd : m.Direct) :
    m.complex.filterMap ComplexProperty.searchPath =
      m.namedTexts.map fun x => x.backend.getD "" ++ "." ++ Record.nameProperty := by
  have hpath : ∀ x ∈ m.complex, x.searchPath = if x.kind = .referenceName then
      some (x.backend.getD "" ++ "." ++ Record.nameProperty) else none := by
    intro x hx
    rw [ComplexProperty.searchPath]
    cases hk : x.kind with
    | referenceName =>
        obtain ⟨b, hb, hne, _⟩ := hd.named x hx hk
        simp [Option.mem_def.1 hb, hne]
    | _ => rfl
  rw [EntityMapping.namedTexts, List.filterMap_congr hpath, ← List.filterMap_eq_map,
    ← List.filterMap_eq_filter, List.filterMap_filterMap]
  refine List.filterMap_congr fun x _ => ?_
  by_cases hk : x.kind = .referenceName <;> simp [hk, Option.guard]

/-- Along each path of a free-text search the catalog finds a literal if the federation does in the
value that the record has. -/
theorem forall₂_textPaths (hp : SearchPattern.classify p = .literal kind l) (hd : m.Direct)
    (ht : cat.Textual t) (hm : m ∈ MappingTable.backed t.mappings) (hr : r ∈ cat.records.values)
    (htype : r.type = m.assetType) :
    List.Forall₂ (fun path v =>
        (Node.compare path kind.native (.text l)).holds (cat.holds r) = .ok (v.isLike p))
      (Planner.textPaths m (cat.reported m.assetType) excluded)
      (m.textValues (cat.reported m.assetType) excluded r) := by
  rw [Planner.textPaths, List.filter_map, filterMap_searchPath hd, EntityMapping.textValues]
  refine List.rel_append ?_ ?_
  · rw [List.forall₂_map_left_iff, List.forall₂_map_right_iff]
    refine List.forall₂_same.2 fun x hx => ?_
    obtain ⟨hx, hreported⟩ := List.mem_filter.1 hx
    have hreported := List.contains_iff_mem.1 (Bool.and_eq_true_iff.1 hreported).1
    exact holds_copied hp (hd.copied x hx) (ht.reported r hr _ (htype ▸ hreported))
  · rw [List.forall₂_map_left_iff, List.forall₂_map_right_iff, List.forall₂_same]
    intro x hx
    obtain ⟨hx, hk⟩ := List.mem_filter.1 hx
    have hk := of_decide_eq_true hk
    obtain ⟨b, hb, _, hdot⟩ := hd.named x hx hk
    obtain ⟨refs, hrefs, hknown⟩ := ht.named m hm x hx hk b hb r hr htype
    have hvalue : r.complexValue x m.mark = .ok (Record.namesValue refs) := by
      simp only [Record.complexValue, hk, Option.mem_def.1 hb, hrefs]
      rfl
    rw [Option.mem_def.1 hb, hvalue]
    exact holds_names hp hdot hrefs hknown

end Catalog

/-- One of the paths leads to a value that compares like this. -/
def Folded.anyAlong (paths : List String) (o : NativeOperator) (value : Value) : Folded :=
  .combine .any (paths.map fun path => .node (.compare path o value))

theorem Folded.holds_anyAlong {native : NativeCondition → Attempt Bool} {paths : List String}
    {o : NativeOperator} {value : Value} {told : Value → Bool} {xs : List Value}
    (h : List.Forall₂ (fun path x => (Node.compare path o value).holds native = .ok (told x))
      paths xs) :
    (anyAlong paths o value).holds native = .ok (xs.any told) := by
  have htold : List.Forall₂ (fun (f : Folded) b => f.holds native = .ok b)
      (paths.map fun path => .node (.compare path o value)) (xs.map told) :=
    List.forall₂_map_left_iff.2 (List.forall₂_map_right_iff.2 h)
  rw [anyAlong, combine_any_holds htold, List.any_map]
  rfl

namespace Planner

variable {p : Planner} {m : EntityMapping} {kind : LiteralKind} {value l : String}

theorem anyMatches_literal (hv : SearchPattern.classify value = .literal kind l)
    (paths : List String) :
    anyMatches paths value = .ok (.anyAlong paths kind.native (.text l)) := by
  have hcompile (path : String) : PropertyOperator.compile path .like (.text value) =
      .ok (.of path kind.native (.text l)) := by
    have hstring : PropertyOperator.string? path .like (.text value) =
        .ok (some (.of path kind.native (.text l))) := by
      unfold PropertyOperator.string?
      simp only [hv]
    change (PropertyOperator.string? path .like (.text value) >>= fun o => .ok (o.getD _)) = _
    rw [hstring]
    rfl
  have hall : (paths.mapM fun path => PropertyOperator.compile path .like (.text value)) =
      .ok (paths.map fun path => .of path kind.native (.text l)) := by
    rw [Attempt.mapM_eq_ok, List.forall₂_map_right_iff, List.forall₂_same]
    exact fun path _ => hcompile path
  rw [anyMatches, hall, Attempt.ok_bind, List.map_map]
  rfl

/-- A mapping without text properties is not searched, and no entity of it is asked for. -/
theorem textSearch_plain (hv : SearchPattern.classify value = .literal kind l)
    (type : Option String) (reported : StringProperties) (excluded : List String) :
    p.textSearch { type } value reported excluded m =
      let f := Folded.anyAlong
        (textPaths m ((Assoc.find? m.assetType reported).getD []) excluded) kind.native (.text l)
      .ok (if f.isNever then none else some (.plain m f)) := by
  rw [textSearch]
  cases textPaths m ((Assoc.find? m.assetType reported).getD []) excluded with
  | nil => rfl
  | cons path paths => simp only [anyMatches_literal hv, Attempt.ok_bind, assemble_plain]

theorem exists_literal (h : p.rerouted? value = .ok none) :
    checkText value = .ok () ∧ ∃ kind l, SearchPattern.classify value = .literal kind l := by
  obtain ⟨⟨⟩, hcheck, _⟩ := Attempt.bind_eq_ok.1 h
  refine ⟨hcheck, ?_⟩
  rw [checkText] at hcheck
  cases hv : SearchPattern.classify value with
  | literal kind l => exact ⟨kind, l, rfl⟩
  | general =>
      rw [hv] at hcheck
      cases hcheck

end Planner

namespace Backend

open Session

variable {b : Backend} {cat : Catalog} (hb : b.Working cat)

include hb

theorem Working.yields_enter (e : Endpoint) : Yields (b.enter e) (.ok ()) :=
  b.entry_eq_ok.2 (hb.available e) ▸ b.yields_enter e

theorem Working.yields_reportedFor (ts : List String) :
    Yields (Collection.reportedFor b ts) (.ok (ts.map fun t => (t, b.stringProperties t))) := by
  induction ts with
  | nil => exact yields_pure _
  | cons t ts ih =>
      have hnames : Yields (b.askStringProperties t) (.ok (b.stringProperties t)) :=
        (hb.yields_enter .stringProperties).bind_ok (yields_pure _)
      exact hnames.bind_ok (ih.bind_ok (yields_pure _))

theorem Working.yields_askVersion : Yields b.askVersion (.ok b.version) :=
  (hb.yields_enter .version).bind_ok (yields_pure _)

end Backend

namespace Service

variable {s : Service} (limit : Option Value)

theorem stringProperties_bounded : (s.bounded limit).stringProperties = s.catalog.reported := by
  cases limit <;> rfl

theorem version_bounded : (s.bounded limit).version = s.catalog.version := by
  cases limit <;> rfl

end Service

namespace Collection

open Planner MappingTable

variable {c : Collection} {s : Service} {m : EntityMapping} {ms : List EntityMapping}
  {value l : String} {kind : LiteralKind} {type : Option String} {xs : List Entity}
  {reported : StringProperties}

/-- The properties that a free-text search leaves out in a release of the catalog. -/
def excluded (c : Collection) (version : String) : List String :=
  (Assoc.find? version c.settings.exclusions).getD []

/-- One of the properties of the entity that a free-text search goes through matches a pattern. -/
def matchesText (c : Collection) (cat : Catalog) (value : String) (e : Entity) : Bool :=
  (c.table.forAbstract e.type).any fun m =>
    (m.textProperties (cat.reported m.assetType) (c.excluded cat.version)).any fun name =>
      (e.read name).isLike value

/-- The entities a free-text search finds under one mapping are those of the mapping that match. -/
theorem entitiesOf_textSearch (ht : c.table.Accepted) (hd : m.Direct)
    (htexts : s.catalog.Textual c.table) (hv : SearchPattern.classify value = .literal kind l)
    (hm : m ∈ backed c.table.mappings)
    (hreported : (Assoc.find? m.assetType reported).getD [] = s.catalog.reported m.assetType)
    (h : c.entitiesFor s { type } m = .ok xs) :
    (c.planner.textSearch { type } value reported (c.excluded s.catalog.version) m >>= fun n =>
        (c.scope s).entitiesOf n.toList) =
      .ok (xs.filter (c.matchesText s.catalog value)) := by
  have hmem := (mem_backed.1 hm).1
  have hn := EntityMapping.nodup_abstractProperties (ht.checked m hmem)
  obtain ⟨hits, ha, hx⟩ := entitiesFor_all h
  obtain ⟨hout, hsearch⟩ := Service.answer_bounded.1 ha
  rw [textSearch_plain hv, hreported]
  generalize hpaths : textPaths m (s.catalog.reported m.assetType) (c.excluded s.catalog.version) =
    paths
  have htold (r : Record) (hr : r ∈ s.catalog.records.values) (htype : r.type = m.assetType) :
      (Folded.anyAlong paths kind.native (.text l)).holds (s.catalog.holds r) =
        .ok ((m.textValues (s.catalog.reported m.assetType) (c.excluded s.catalog.version) r).any
          (·.isLike value)) :=
    Folded.holds_anyAlong (hpaths ▸ Catalog.forall₂_textPaths hv hd htexts hm hr htype)
  -- The condition can be told for every record of the mapping, so the search finds a part of the
  -- hits without it, and `matchesText` tells of the entities which part.
  obtain ⟨rs, hrs, rfl, hfound⟩ := Catalog.search_plain hsearch htold
  have hmatches (r : Record) (e : Entity)
      (he : Entity.ofRecord c.home m (r.project m.projected) = .ok e) :
      c.matchesText s.catalog value e =
        (m.textValues (s.catalog.reported m.assetType) (c.excluded s.catalog.version) r).any
          (·.isLike value) := by
    rw [matchesText, Entity.type_of_ofRecord he, ht.forAbstract_of_mem hmem, Option.any_some,
      ← EntityMapping.map_read_textProperties hn hd he, List.any_map]
    rfl
  rw [Scope.collect_map] at hx
  have hkept := Scope.collect_filter hx fun r _ us hu => Scope.filter_readEntity hu (hmatches r)
  rw [← Scope.collect_map (fun r => r.project m.projected)] at hkept
  exact entitiesOf_left (NativeSearch.isFor_plain m _) hout
    (fun r hr => htold r (hrs r hr).1 (hrs r hr).2) hfound hkept

/-- What the catalog reports about the asset types of some mappings. -/
def reportedOn (cat : Catalog) (ms : List EntityMapping) : StringProperties :=
  (firsts (ms.map EntityMapping.assetType)).map fun t => (t, cat.reported t)

theorem find?_reportedOn {cat : Catalog} (hm : m ∈ ms) :
    Assoc.find? m.assetType (reportedOn cat ms) = some (cat.reported m.assetType) := by
  have hmem : m.assetType ∈ firsts (ms.map EntityMapping.assetType) :=
    mem_firsts.2 (List.mem_map_of_mem hm)
  rw [reportedOn]
  generalize firsts (ms.map EntityMapping.assetType) = ts at hmem
  induction ts with
  | nil => cases hmem
  | cons t ts ih =>
      rw [List.map_cons, Assoc.find?]
      split
      · next he => rw [he]
      · next hne => exact ih ((List.mem_cons.1 hmem).resolve_left fun e => hne e.symm)

/-- The release, as a free-text search asks for it: not at all if nothing is searched. -/
def releaseFor (cat : Catalog) (ms : List EntityMapping) : Option String :=
  if ms.isEmpty then none else some cat.version

theorem yields_findByText (hlimit : s.Meets c.settings.timeout) (hnone : s.failures = [])
    (hv : c.planner.rerouted? value = .ok none) {q : EntitySearch} (hq : q.historical = false)
    (hms : c.planner.candidates q = .ok ms) :
    Session.Yields (c.findByText s value q)
      (c.planner.planText q value (reportedOn s.catalog ms) (releaseFor s.catalog ms) none >>=
        c.windowOf s) := by
  have hw : (c.scope s).backend.Working s.catalog := Service.working_bounded hlimit hnone
  have hreports : (c.scope s).backend.stringProperties = s.catalog.reported :=
    Service.stringProperties_bounded _
  have hversion : (c.scope s).backend.version = s.catalog.version := Service.version_bounded _
  have hreported := hw.yields_reportedFor (firsts (ms.map EntityMapping.assetType))
  have hasked := hw.yields_askVersion
  rw [hreports] at hreported
  rw [hversion] at hasked
  have hplanned (version : Option String) : Session.Yields
      (Session.ofAttempt (c.planner.planText q value (reportedOn s.catalog ms) version none) >>=
        (c.scope s).runEntities)
      (c.planner.planText q value (reportedOn s.catalog ms) version none >>= c.windowOf s) :=
    (Session.yields_ofAttempt _).bind fun p _ => (c.scope s).yields_run _ p
  have hpresent : Planner.checkPresent q.historical = .ok () := by
    rw [hq]
    rfl
  refine (Session.yields_of_eq_ok hpresent).bind_ok ?_
  refine (Session.yields_of_eq_ok hv).bind_ok ?_
  refine (Session.yields_of_eq_ok hms).bind_ok (hreported.bind_ok ?_)
  rw [releaseFor]
  cases ms.isEmpty with
  | true => exact hplanned none
  | false => exact hasked.bind_ok (hplanned (some s.catalog.version))

/-- What can be found under each of its mappings, a free-text search answers. -/
theorem findByText_of_mapM (hlimit : s.Meets c.settings.timeout) (hnone : s.failures = [])
    (hv : c.planner.rerouted? value = .ok none) (hms : c.planner.candidates { type } = .ok ms)
    {xss : List (List Entity)}
    (h : (ms.mapM fun m => c.planner.textSearch { type } value (reportedOn s.catalog ms)
      (c.excluded s.catalog.version) m >>= fun n => (c.scope s).entitiesOf n.toList) = .ok xss) :
    (Session.runFrom {} (c.findByText s value { type })).1 = .ok xss.flatten := by
  obtain ⟨os, hos, hall⟩ := entitiesOf_of_mapM h
  obtain ⟨_, _, hu⟩ := unpaged_of_mapM hos fun m n => textSearch_isFor
  have hplan : c.planner.planText { type } value (reportedOn s.catalog ms)
      (releaseFor s.catalog ms) none = .ok ⟨os.filterMap id, 0, 0⟩ := by
    have hsearches : ms.mapM (c.planner.textSearch { type } value (reportedOn s.catalog ms)
        (c.excluded ((releaseFor s.catalog ms).getD ""))) = .ok os := by
      cases ms with
      | nil => exact hos
      | cons m ms => exact hos
    have hpresent : Planner.checkPresent ({ type } : EntitySearch).historical = .ok () := rfl
    have hplain := (exists_literal hv).1
    rw [planText, hpresent, hplain, hms]
    simp only [Attempt.within, Attempt.ok_bind]
    exact Attempt.bind_eq_ok.2 ⟨os, hsearches, congrArg _ (planOf_unpaged hu rfl rfl)⟩
  have hanswer := yields_findByText hlimit hnone hv (q := { type }) rfl hms {}
  rw [hanswer, hplan, Attempt.ok_bind, windowOf_of_entitiesOf hall]
  rfl

/-- Searching for a text finds just the entities with a matching property: of those of a type, the
ones that have a value like it among the properties copied from what the catalog reports to hold
texts, unless the release excludes it, and among the names of other records. -/
theorem text_search_exact (hc : c.table = MappingTable.standard)
    (htexts : s.catalog.Textual c.table) (hlimit : s.Meets c.settings.timeout)
    (hnone : s.failures = []) (hv : c.planner.rerouted? value = .ok none) (type : Option String)
    {operation operation' : String} {all : List Entity}
    (h : (c.run operation (c.findEntities s { type })).1 = .ok (.value all)) :
    (c.run operation' (c.findByText s value { type })).1 =
      .ok (.value (all.filter (c.matchesText s.catalog value))) := by
  have ht : c.table.Accepted := hc ▸ accepted_standard
  have hd : ∀ m ∈ backed c.table.mappings, m.Direct := hc ▸ direct_standard
  obtain ⟨_, kind, l, hliteral⟩ := exists_literal hv
  obtain ⟨ms, xss, hms, hxss, rfl⟩ :=
    mapM_of_findEntities (q := { type }) ht (run_eq_value.1 h)
  obtain ⟨yss, hyss, hflat⟩ := Attempt.exists_mapM_filter hxss fun m hm xs hx =>
    have hback := candidates_backed (p := c.planner) hms m hm
    entitiesOf_textSearch ht (hd m hback) htexts hliteral hback
      (congrArg (·.getD []) (find?_reportedOn hm)) hx
  rw [run_eq_value, ← hflat]
  exact findByText_of_mapM hlimit hnone hv hms hyss

end Collection

namespace Sample

def salesDesk : Record := { ref := ⟨"user-1", "user", some "Sales Desk"⟩ }

/-- Two hosts, a database that the sales desk looks after, and a term whose long description is
left out in the release. -/
def salesService : Service :=
  { catalog :=
      { ((((({} : Catalog).put salesDesk).put { ref := ⟨"host-1", "host", some "Salesforce"⟩ }).put
          { ref := ⟨"host-2", "host", some "alpha"⟩ }).put
          { ref := ⟨"database-1", "database", some "orders"⟩
            properties := [("steward", .reference salesDesk.ref)] }).put
          { ref := ⟨"term-1", "term", some "Margin"⟩
            properties := [("long_description", .text "Sales minus cost")] } with
        stringProperties := [("host", ["name", "short_description"]), ("database", ["name"]),
          ("term", ["name", "long_description"])]
        version := "11.7.0.2" } }

theorem stewards_salesService : ∀ r ∈ salesService.catalog.records.values,
    r.references "steward" = .ok [] ∨ r.references "steward" = .ok [salesDesk.ref] := by
  rw [show salesService.catalog.records.values = [_, _, _, _, _] from rfl]
  simp only [List.forall_mem_cons]
  exact ⟨.inl rfl, .inl rfl, .inl rfl, .inr rfl, .inl rfl, by simp⟩

theorem textual_salesService : salesService.catalog.Textual MappingTable.standard where
  reported := by decide +kernel
  named := by
    have hsteward : ∀ m ∈ MappingTable.backed MappingTable.standard.mappings, ∀ x ∈ m.complex,
        x.kind = .referenceName → x.backend = some "steward" := by
      decide +kernel
    intro m hm x hx hk b hb r hr _
    cases (hsteward m hm x hx hk).symm.trans hb
    rcases stewards_salesService r hr with h | h
    · exact ⟨_, h, by simp⟩
    · exact ⟨_, h, List.forall_mem_singleton.2 ⟨"Sales Desk", salesDesk, rfl, by decide, rfl, rfl⟩⟩

/-- All entities of the service. -/
def salesEntities : Attempt (Outcome (List Entity)) :=
  (collection.run "find_entities" (collection.findEntities salesService {})).1

/-- The entities of the service with a certain text. -/
def salesWith (value : String) : Attempt (Outcome (List Entity)) :=
  (collection.run "find_entities_by_property_value"
    (collection.findByText salesService value {})).1

theorem guids_salesEntities : guidsOf salesEntities =
    some ["e:home-1::host:host-1", "e:home-1::host:host-2", "e:home-1::database:database-1",
      "e:home-1::term:term-1"] := by
  decide +kernel

/-- A text is found in the name of a host and in that of the steward of a database, but not in what
is left out. -/
theorem sales_found : ∃ all, salesEntities = .ok (.value all) ∧
    all.map Entity.guid = ["e:home-1::host:host-1", "e:home-1::host:host-2",
      "e:home-1::database:database-1", "e:home-1::term:term-1"] ∧
    salesWith ".*Sales.*" =
      .ok (.value (all.filter (collection.matchesText salesService.catalog ".*Sales.*"))) ∧
    guidsOf (salesWith ".*Sales.*") =
      some ["e:home-1::host:host-1", "e:home-1::database:database-1"] := by
  obtain ⟨all, ha, hg⟩ := exists_of_guidsOf guids_salesEntities
  exact ⟨all, ha, hg, Collection.text_search_exact (c := collection) rfl textual_salesService
    (meets_of_prompt rfl) rfl rfl none ha, by decide +kernel⟩

end Sample

end MetaFed
