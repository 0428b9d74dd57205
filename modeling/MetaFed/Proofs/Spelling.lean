import MetaFed.Proofs.Found
import MetaFed.Proofs.Operation

/-!
Spellings of one identifier. Decoding accepts more texts than encoding makes, since any character
may be escaped. Operations that decode the identifier of an entity do the same for all spellings of
it. The surroundings of an entity are found by comparing identifiers as texts, so there only the
spelling that encoding makes leads anywhere.
-/

namespace MetaFed

variable {α β : Type}

/-- The cause without the entity identifier that was asked for. -/
def Cause.unnamed : Cause → Cause
  | .entityNotKnown _ => .entityNotKnown ""
  | c => c

namespace Refusal

/-- A parameter, without its value if it is an identifier. -/
def unnamedParam (p : String × Value) : String × Value :=
  if p.1 = "guid" then (p.1, .text "") else p

/-- The refusal without the entity identifier that was asked for. -/
def unnamed (r : Refusal) : Refusal :=
  { r with cause := r.cause.unnamed, params := r.params.map unnamedParam }

@[simp] theorem fst_unnamedParam (p : String × Value) : (unnamedParam p).1 = p.1 := by
  rw [unnamedParam]
  split <;> rfl

theorem has_map_unnamedParam (k : String) (m : Assoc String Value) :
    Assoc.has k (m.map unnamedParam) = Assoc.has k m := by
  induction m with
  | nil => rfl
  | cons p m ih =>
      simp only [Assoc.has, List.map_cons, Assoc.find?, fst_unnamedParam] at ih ⊢
      split
      · rfl
      · exact ih

theorem put_map_unnamedParam {k : String} (hk : k ≠ "guid") (v : Value) (m : Assoc String Value) :
    Assoc.put k v (m.map unnamedParam) = (Assoc.put k v m).map unnamedParam := by
  have hsame : unnamedParam (k, v) = (k, v) := if_neg hk
  induction m with
  | nil => rw [List.map_nil, Assoc.put, List.map_cons, hsame, List.map_nil]
  | cons p m ih =>
      simp only [List.map_cons, Assoc.put, fst_unnamedParam]
      split
      · rw [List.map_cons, hsame]
      · rw [List.map_cons, ih]
        exact congrArg (· :: _) (Prod.ext (fst_unnamedParam p).symm rfl)

theorem unnamed_withParam {k : String} (hk : k ≠ "guid") (v : Value) (r : Refusal) :
    (r.withParam k v).unnamed = r.unnamed.withParam k v := by
  simp only [withParam, unnamed, Assoc.putNew, has_map_unnamedParam]
  split
  · rfl
  · rw [put_map_unnamedParam hk]

theorem isMisconfigured_unnamed (r : Refusal) :
    Outcome.isMisconfigured r.unnamed = Outcome.isMisconfigured r := by
  rw [Outcome.isMisconfigured, Outcome.isMisconfigured, unnamed]
  cases r.cause <;> rfl

end Refusal

namespace Failure

def unnamed : Failure → Failure
  | .refused r => .refused r.unnamed
  | .fault f => .fault f

/-- Two failures are the same up to the entity identifier that they tell. -/
def Echo (f f' : Failure) : Prop :=
  f.unnamed = f'.unnamed

theorem echo_cases {f f' : Failure} (h : f.Echo f') : (∃ x, f = .fault x ∧ f' = .fault x) ∨
    ∃ r r', f = .refused r ∧ f' = .refused r' ∧ r.unnamed = r'.unnamed := by
  cases f with
  | fault x =>
      cases f' with
      | fault x' => exact .inl ⟨x, rfl, h.symm⟩
      | refused r' => cases h
  | refused r =>
      cases f' with
      | fault x' => cases h
      | refused r' => exact .inr ⟨r, r', rfl, rfl, Failure.refused.inj h⟩

end Failure

namespace Outcome

/-- The outcome without the entity identifier that its refusal tells. -/
def unnamed : Outcome α → Outcome α
  | .value x => .value x
  | .failure r => .failure r.unnamed

/-- The failure that a refusal comes to, without the entity identifier that it tells. -/
theorem unnamed_told (operation home : String) (r : Refusal) :
    ((r.withOperation operation).withParam "home_collection_id" (.text home)).unnamed =
      (r.unnamed.withOperation operation).withParam "home_collection_id" (.text home) :=
  Refusal.unnamed_withParam (by decide) _ _

theorem ofAttempt_echo (operation home : String) {a a' : Attempt α}
    (h : Attempt.Alike Failure.Echo Eq a a') :
    ((ofAttempt operation home a).map unnamed).mapError Failure.unnamed =
      ((ofAttempt operation home a').map unnamed).mapError Failure.unnamed := by
  cases h with
  | ok h => rw [h]
  | error h =>
      obtain ⟨x, rfl, rfl⟩ | ⟨r, r', rfl, rfl, hr⟩ := Failure.echo_cases h
      · rfl
      · have hconf : isMisconfigured r = isMisconfigured r' := by
          rw [← Refusal.isMisconfigured_unnamed, hr, Refusal.isMisconfigured_unnamed]
        rw [ofAttempt, ofAttempt, hconf]
        cases isMisconfigured r' with
        | true => exact congrArg (fun r => Except.error (Failure.refused r)) hr
        | false =>
            have hfail := unnamed_told operation home r
            rw [hr, ← unnamed_told] at hfail
            exact congrArg (fun r => Except.ok (Outcome.failure r)) hfail

end Outcome

namespace Session

/-- Two parts of a session do the same in every state, and end in the same way up to the entity
identifier that a refusal tells. -/
def Echo (m m' : Session α) : Prop :=
  ∀ s, Attempt.Alike Failure.Echo Eq (runFrom s m).1 (runFrom s m').1 ∧
    (runFrom s m).2 = (runFrom s m').2

theorem Echo.refl (m : Session α) : Echo m m := by
  intro s
  refine ⟨?_, rfl⟩
  cases (runFrom s m).1 with
  | ok a => exact .ok rfl
  | error f => exact .error rfl

theorem echo_throw {f f' : Failure} (h : f.Echo f') : Echo (throw f : Session α) (throw f') :=
  fun _ => ⟨.error h, rfl⟩

/-- What follows has to do the same for the results that the part can have. -/
theorem Echo.bind_of {m m' : Session α} {f f' : α → Session β} (hm : Echo m m')
    (hf : ∀ s s' a, runFrom s m = (.ok a, s') → runFrom s m' = (.ok a, s') → Echo (f a) (f' a)) :
    Echo (m >>= f) (m' >>= f') := by
  intro s
  obtain ⟨hend, hstate⟩ := hm s
  rw [runFrom_bind, runFrom_bind]
  rcases hrun : runFrom s m with ⟨a, s₁⟩
  rcases hrun' : runFrom s m' with ⟨a', s₂⟩
  rw [hrun, hrun'] at hend hstate
  cases hstate
  cases hend with
  | ok h =>
      cases h
      exact hf s s₁ _ hrun hrun' s₁
  | error h => exact ⟨.error h, rfl⟩

theorem Echo.bind {m m' : Session α} {f f' : α → Session β} (hm : Echo m m')
    (hf : ∀ a, Echo (f a) (f' a)) : Echo (m >>= f) (m' >>= f') :=
  hm.bind_of fun _ _ a _ _ => hf a

end Session

namespace Collection

open Session

variable {c : Collection} {σ : Type} [Provider σ] {s : σ} {g g' : String} {id : EntityId}

/-- An answer without the entity identifier that its refusal tells. -/
def unnamed (a : Attempt (Outcome α) × List Event) : Attempt (Outcome α) × List Event :=
  ((a.1.map Outcome.unnamed).mapError Failure.unnamed, a.2)

theorem unnamed_run {operation : String} {m m' : Session α} (h : Echo m m') :
    unnamed (c.run operation m) = unnamed (c.run operation m') := by
  obtain ⟨hend, hstate⟩ := h {}
  simp only [unnamed, run, Outcome.ofAttempt_echo operation c.home hend, hstate]

theorem isEntityNotKnown_unnamed (r : Refusal) :
    isEntityNotKnown r.unnamed.cause = isEntityNotKnown r.cause := by
  rw [Refusal.unnamed]
  cases r.cause <;> rfl

theorem echo_ifKnown {m m' : Session α} (h : Echo m m') :
    Echo (ifKnown isEntityNotKnown m) (ifKnown isEntityNotKnown m') := by
  intro s
  obtain ⟨hend, hstate⟩ := h s
  rw [runFrom_ifKnown, runFrom_ifKnown]
  rcases hrun : runFrom s m with ⟨a, s₁⟩
  rcases hrun' : runFrom s m' with ⟨a', s₂⟩
  rw [hrun, hrun'] at hend hstate
  cases hstate
  cases hend with
  | ok h =>
      cases h
      exact ⟨.ok rfl, rfl⟩
  | error h =>
      obtain ⟨x, rfl, rfl⟩ | ⟨r, r', rfl, rfl, hr⟩ := Failure.echo_cases h
      · exact ⟨.error h, rfl⟩
      · have hknown : isEntityNotKnown r.cause = isEntityNotKnown r'.cause := by
          rw [← isEntityNotKnown_unnamed, hr, isEntityNotKnown_unnamed]
        refine ⟨?_, rfl⟩
        simp only [hknown]
        split
        · exact .ok rfl
        · exact .error h

theorem echo_owner : Echo (ofAttempt (c.owner g id)) (ofAttempt (c.owner g' id)) := by
  rw [owner, owner]
  split
  · exact echo_throw rfl
  · exact .refl _

section

variable (hg : EntityId.decode g (some c.home) = .ok id)
  (hg' : EntityId.decode g' (some c.home) = .ok id)

include hg hg'

theorem echo_entityRecord : Echo (c.entityRecord s g) (c.entityRecord s g') := by
  have hd : c.decodeEntity g = c.decodeEntity g' := by rw [decodeEntity, decodeEntity, hg, hg']
  rw [entityRecord, entityRecord, hd]
  refine (Echo.refl _).bind fun id => ?_
  refine echo_owner.bind fun m => (Echo.refl _).bind fun r => ?_
  cases r with
  | none => exact echo_throw rfl
  | some r =>
      simp only
      split
      · exact .refl _
      · exact echo_throw rfl

theorem echo_entity : Echo (c.entity s g) (c.entity s g') := by
  refine (echo_entityRecord hg hg').bind fun p => (Echo.refl _).bind fun e => ?_
  cases e with
  | none => exact echo_throw rfl
  | some e => exact .refl _

theorem echo_relationshipsOf (type : Option String) :
    Echo (c.relationshipsOf s g type) (c.relationshipsOf s g' type) := by
  have hrest := (echo_entityRecord (s := s) hg hg').bind fun p =>
    Echo.refl ((c.scope s).relationshipsOf p.1 p.2 type)
  rw [relationshipsOf, relationshipsOf]
  split
  · exact (Echo.refl _).bind fun _ => hrest
  · exact hrest

theorem echo_relationshipPage (type : Option String) (w : Window) (historical : Bool) :
    Echo (c.relationshipPage s g type w historical) (c.relationshipPage s g' type w historical) :=
  (Echo.refl _).bind fun _ => (echo_relationshipsOf hg hg' type).bind fun _ => .refl _

end

theorem exists_link_of_mem {st st' : SessionState} {type : Option String} {rs : List Relationship}
    (h : runFrom st (c.relationshipsOf s g type) = (.ok rs, st')) {r : Relationship} (hr : r ∈ rs) :
    ∃ l : Link, l.relationship? c.home c.table = .ok (some r) := by
  obtain ⟨_, hrun⟩ := runFrom_relationshipsOf_eq_ok.1 h
  obtain ⟨p, st₁, _, hrun⟩ := runFrom_bind_eq_ok.1 (congrArg Prod.fst hrun)
  obtain ⟨ls, st₂, _, hrun⟩ := runFrom_bind_eq_ok.1 hrun
  obtain ⟨xs, st₃, hxs, hrun⟩ := runFrom_bind_eq_ok.1 hrun
  rw [runFrom_ofAttempt] at hxs
  cases hrun
  obtain ⟨l, _, hl⟩ := (Scope.mem_relationships (congrArg Prod.fst hxs)).1
    (Scope.mem_of_mem_distinct hr)
  exact ⟨l, hl⟩

/-- Only the spelling that encoding makes is at an end of a relationship. -/
theorem otherEnd_eq_none (hg : EntityId.decode g (some c.home) = .ok id) (hne : id.guid ≠ .ok g)
    {l : Link} {r : Relationship} (hl : l.relationship? c.home c.table = .ok (some r)) :
    r.otherEnd g = none := by
  obtain ⟨a, b, _, _, _, _, _, _, hone, htwo⟩ := Link.relationship?_eq_some hl
  have hspelled (a : RecordRef) : (a.entity c.home).guid ≠ .ok g := by
    intro ha
    rw [EntityId.decode_guid a.complete.2.2 ha (some c.home) (by simp [RecordRef.entity])] at hg
    cases hg
    exact hne ha
  have hone' : r.one.guid ≠ g := fun e => hspelled a (e ▸ hone)
  have htwo' : r.two.guid ≠ g := fun e => hspelled b (e ▸ htwo)
  rw [Relationship.otherEnd, if_neg hone', if_neg htwo']

theorem explore_of_no_end (f : NeighborFilter) {rs : List Relationship}
    (h : ∀ r ∈ rs, r.otherEnd g = none) (n : Neighborhood) : c.explore s f g n rs = pure n := by
  induction rs with
  | nil => rfl
  | cons r rs ih =>
      have hnone : c.neighbor? f g r = none := by
        rw [neighbor?, h r List.mem_cons_self]
        split <;> rfl
      rw [explore, hnone]
      exact ih fun r' hr' => h r' (List.mem_cons_of_mem r hr')

section

variable (hg : EntityId.decode g (some c.home) = .ok id)

include hg

/-- A spelling that encoding does not make leads nowhere. -/
theorem explore_of_spelling (hne : id.guid ≠ .ok g) (f : NeighborFilter) {st st' : SessionState}
    {rs : List Relationship} (h : runFrom st (c.relationshipsOf s g none) = (.ok rs, st')) :
    c.explore s f g {} rs = pure {} := by
  refine explore_of_no_end f (fun r hr => ?_) {}
  obtain ⟨l, hl⟩ := exists_link_of_mem h hr
  exact otherEnd_eq_none hg hne hl

theorem echo_neighborhood (hg' : EntityId.decode g' (some c.home) = .ok id)
    (hiff : id.guid = .ok g ↔ id.guid = .ok g') (f : NeighborFilter) (historical : Bool)
    (level : Value) :
    Echo (c.neighborhood s g f historical level) (c.neighborhood s g' f historical level) := by
  by_cases hc : id.guid = .ok g
  · have he : g = g' := Except.ok.inj (hc.symm.trans (hiff.1 hc))
    rw [he]
    exact .refl _
  · have hc' : id.guid ≠ .ok g' := fun h => hc (hiff.2 h)
    refine (Echo.refl _).bind fun _ => ?_
    split
    · exact .refl _
    · refine (Echo.refl _).bind fun _ => (echo_relationshipsOf hg hg' none).bind_of ?_
      intro st st' rs hrun hrun'
      rw [explore_of_spelling hg hc f hrun, explore_of_spelling hg' hc' f hrun']
      exact .refl _

theorem neighborhood_of_spelling (hne : id.guid ≠ .ok g) {f : NeighborFilter} {historical : Bool}
    {level : Value} {x : Neighborhood}
    (h : (c.answer s (.neighborhood g f historical level)).1 = .ok (.value x)) : x = {} := by
  obtain ⟨_, st, _, h⟩ := runFrom_bind_eq_ok.1 (answer_eq_value.1 h)
  simp only at h
  split at h
  · cases h
  · obtain ⟨_, st₁, _, h⟩ := runFrom_bind_eq_ok.1 h
    obtain ⟨rs, st₂, hrun, h⟩ := runFrom_bind_eq_ok.1 h
    rw [explore_of_spelling hg hne f hrun] at h
    cases h
    rfl

end

/-- All spellings of an identifier stand for one entity: looking it up and listing its
relationships answer the same, up to the spelling that a refusal tells, and call the backend in the
same way. So does asking for its surroundings with two spellings that encoding makes, or with two
that it does not make; these lead nowhere. -/
theorem spellings_agree (hg : EntityId.decode g (some c.home) = .ok id)
    (hg' : EntityId.decode g' (some c.home) = .ok id) :
    unnamed (c.answer s (.entity g)) = unnamed (c.answer s (.entity g')) ∧
    unnamed (c.answer s (.knownEntity g)) = unnamed (c.answer s (.knownEntity g')) ∧
    (∀ type w historical, unnamed (c.answer s (.relationships g type w historical)) =
      unnamed (c.answer s (.relationships g' type w historical))) ∧
    ∀ f historical level,
      ((id.guid = .ok g ↔ id.guid = .ok g') →
        unnamed (c.answer s (.neighborhood g f historical level)) =
          unnamed (c.answer s (.neighborhood g' f historical level))) ∧
      (id.guid ≠ .ok g → ∀ x,
        (c.answer s (.neighborhood g f historical level)).1 = .ok (.value x) → x = {}) := by
  refine ⟨unnamed_run (echo_entity hg hg'), unnamed_run (echo_ifKnown (echo_entity hg hg')), ?_, ?_⟩
  · intro type w historical
    exact unnamed_run (echo_relationshipPage hg hg' type w historical)
  · intro f historical level
    exact ⟨fun hiff => unnamed_run (echo_neighborhood hg hg' hiff f historical level),
      fun hne x hx => neighborhood_of_spelling hg hne hx⟩

end Collection

namespace Sample

def databaseId : EntityId := ⟨"home-1", "database", "database-1", none⟩

def databaseGuid : String := "e:home-1::database:database-1"

/-- The same identifier with an escape where none is needed. -/
def escapedGuid : String := "e:home-1::database:database%2D1"

/-- What asking for the surroundings of an entity answers. -/
def surroundings (s : Service) (f : NeighborFilter) (guid : String) :
    Attempt (Outcome Neighborhood) × List Event :=
  collection.answer s (.neighborhood guid f false (.int 1))

/-- Identifiers of the entities around one and of the relationships that lead to them. -/
def around (s : Service) (f : NeighborFilter) (guid : String) :
    Option (List String × List String) :=
  match (surroundings s f guid).1 with
  | .ok (.value x) => some (x.entities.map Entity.guid, x.relationships.map Relationship.guid)
  | _ => none

theorem decode_databaseGuid :
    EntityId.decode databaseGuid (some collection.home) = .ok databaseId := rfl

theorem decode_escapedGuid :
    EntityId.decode escapedGuid (some collection.home) = .ok databaseId := rfl

theorem escapedGuid_spelled : databaseId.guid ≠ .ok escapedGuid := by
  have hg : databaseId.guid = .ok databaseGuid := rfl
  rw [hg]
  intro h
  exact absurd (Except.ok.inj h) (by decide)

/-- Surroundings that were found, by the identifiers in them. -/
theorem exists_of_around {s : Service} {f : NeighborFilter} {guid : String}
    {gs : List String × List String} (h : around s f guid = some gs) :
    ∃ x, (surroundings s f guid).1 = .ok (.value x) ∧
      (x.entities.map Entity.guid, x.relationships.map Relationship.guid) = gs := by
  rw [around] at h
  split at h
  · rename_i x hx
    exact ⟨x, hx, Option.some.inj h⟩
  · cases h

/-- With either spelling the schema of the database is listed, but it is around the database with
the canonical one only. -/
theorem around_schemaService :
    around schemaService {} databaseGuid =
      some (["e:home-1::database_schema:schema-1"], [schemaGuid]) ∧
    around schemaService {} escapedGuid = some ([], []) ∧
    relationshipGuids
        (collection.answer schemaService (.relationships escapedGuid none {} false)).1 =
      some [schemaGuid] := by
  decide +kernel

theorem databaseGuid_spellings_agree :
    EntityId.decode databaseGuid (some collection.home) = .ok databaseId ∧
    EntityId.decode escapedGuid (some collection.home) = .ok databaseId ∧
    databaseId.guid ≠ .ok escapedGuid ∧
    relationshipGuids (collection.answer schemaService (.relationships escapedGuid none {} false)).1 =
      some [schemaGuid] ∧
    Collection.unnamed
        (collection.answer schemaService (.relationships databaseGuid none {} false)) =
      Collection.unnamed
        (collection.answer schemaService (.relationships escapedGuid none {} false)) ∧
    (surroundings schemaService {} escapedGuid).1 = .ok (.value {}) := by
  obtain ⟨_, _, hlisted, _⟩ := Collection.spellings_agree (c := collection)
    (s := schemaService) decode_databaseGuid decode_escapedGuid
  obtain ⟨_, _, _, haround⟩ := Collection.spellings_agree (c := collection)
    (s := schemaService) decode_escapedGuid decode_databaseGuid
  obtain ⟨_, haround_escaped, hguids⟩ := around_schemaService
  obtain ⟨x, hx, _⟩ := exists_of_around haround_escaped
  have hempty := (haround {} false (.int 1)).2 escapedGuid_spelled x hx
  refine ⟨decode_databaseGuid, decode_escapedGuid, escapedGuid_spelled, hguids,
    hlisted none {} false, ?_⟩
  rw [hx, hempty]

/-- The schema of a database is lost when the identifier of the database is spelled with an
escape. -/
theorem neighbor_lost_by_spelling : MappingTable.standard.Accepted ∧
    EntityId.decode databaseGuid (some collection.home) = .ok databaseId ∧
    EntityId.decode escapedGuid (some collection.home) = .ok databaseId ∧
    around schemaService {} databaseGuid =
      some (["e:home-1::database_schema:schema-1"], [schemaGuid]) ∧
    around schemaService {} escapedGuid = some ([], []) ∧
    Collection.unnamed (surroundings schemaService {} databaseGuid) ≠
      Collection.unnamed (surroundings schemaService {} escapedGuid) := by
  obtain ⟨haround, haround_escaped, _⟩ := around_schemaService
  refine ⟨MappingTable.accepted_standard, decode_databaseGuid, decode_escapedGuid, haround,
    haround_escaped, ?_⟩
  intro h
  obtain ⟨x, hx, hguids⟩ := exists_of_around haround
  obtain ⟨y, hy, hnone⟩ := exists_of_around haround_escaped
  have hxy := congrArg Prod.fst h
  rw [Collection.unnamed, Collection.unnamed, hx, hy] at hxy
  cases hxy
  cases hguids.symm.trans hnone

end Sample

end MetaFed
