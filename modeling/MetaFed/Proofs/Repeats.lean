import MetaFed.Proofs.Found
import MetaFed.Proofs.Tracked
import MetaFed.Proofs.Views

/-!
Relationships that are answered more than once. A listing for an entity leaves repeated identifiers
out. A search does not: its results are free of them where the catalog and the mapping table give no
relationship twice, by a reference that is listed again, by references in both directions, or by
mappings of one type that read the same records.
-/

namespace MetaFed

namespace Scope

variable {α : Type} {R : α → α → Prop} {read : Record → Attempt (List α)} {rs : List Record}
  {room : Option Nat} {zs : List α}

/-- Results of hits are apart if those of each hit are, and those of any two. -/
theorem pairwise_collect (hself : ∀ r ∈ rs, ∀ xs, read r = .ok xs → xs.Pairwise R)
    (hcross : rs.Pairwise fun r r' => ∀ xs ys, read r = .ok xs → read r' = .ok ys →
      ∀ x ∈ xs, ∀ y ∈ ys, R x y)
    (h : collect read room rs = .ok zs) : zs.Pairwise R := by
  induction rs generalizing room zs with
  | nil =>
      cases h
      exact .nil
  | cons r rs ih =>
      obtain ⟨hr, hcross⟩ := List.pairwise_cons.1 hcross
      rw [collect] at h
      obtain ⟨xs, hxs, h⟩ := Attempt.bind_eq_ok.1 h
      simp only at h
      split at h
      · cases h
        exact hself r List.mem_cons_self _ hxs
      · obtain ⟨ys, hys, h⟩ := Attempt.bind_eq_ok.1 h
        cases h
        refine List.pairwise_append.2 ⟨hself r List.mem_cons_self xs hxs,
          ih (fun r' hr' => hself r' (List.mem_cons_of_mem r hr')) hcross hys, fun x hx y hy => ?_⟩
        obtain ⟨r', hr', ys', hys', hy⟩ := exists_of_mem_collect hys hy
        exact hr r' hr' xs ys' hxs hys' x hx y hy

/-- A result of a hit of a search. -/
def Finds (c : Scope) (read : NativeSearch → Option (Record → Attempt (List α))) (n : NativeSearch)
    (x : α) : Prop :=
  ∃ f, read n = some f ∧ ∃ hits, c.backend.answer n = .ok hits ∧
    ∃ r ∈ hits, ∃ xs, f r = .ok xs ∧ x ∈ xs

/-- Results of searches are apart if those of each search are, and those of any two. -/
theorem pairwise_gather {c : Scope} {read : NativeSearch → Option (Record → Attempt (List α))}
    {ns : List NativeSearch}
    (hself : ∀ n ∈ ns, ∀ f, read n = some f → ∀ hits, c.backend.answer n = .ok hits →
      ∀ room xs, collect f room hits = .ok xs → xs.Pairwise R)
    (hcross : ns.Pairwise fun n n' => ∀ x y, c.Finds read n x → c.Finds read n' y → R x y)
    (h : c.gather read room ns = .ok zs) : zs.Pairwise R := by
  induction ns generalizing room zs with
  | nil =>
      cases h
      exact .nil
  | cons n ns ih =>
      obtain ⟨hn, hcross⟩ := List.pairwise_cons.1 hcross
      have ih {room : Option Nat} {zs : List α} (h : c.gather read room ns = .ok zs) :=
        ih (fun n' hn' => hself n' (List.mem_cons_of_mem n hn')) hcross h
      rw [gather] at h
      split at h
      · cases h
        exact .nil
      · cases hf : read n with
        | none =>
            simp only [hf] at h
            exact ih h
        | some f =>
            simp only [hf] at h
            obtain ⟨hits, hhits, h⟩ := Attempt.bind_eq_ok.1 h
            obtain ⟨xs, hxs, h⟩ := Attempt.bind_eq_ok.1 h
            obtain ⟨ys, hys, h⟩ := Attempt.bind_eq_ok.1 h
            cases h
            refine List.pairwise_append.2 ⟨hself n List.mem_cons_self f hf hits hhits _ xs hxs,
              ih hys, fun x hx y hy => ?_⟩
            obtain ⟨n', hn', hy⟩ := exists_of_mem_gather hys hy
            exact hn n' hn' x y ⟨f, hf, hits, hhits, exists_of_mem_collect hxs hx⟩ hy

/-- What is listed once is listed under different identifiers. -/
theorem nodup_foldl_distinct (rs : List Relationship) {seen : List Relationship}
    (h : (seen.map Relationship.guid).Nodup) :
    ((rs.foldl (fun seen r => if seen.any (·.guid == r.guid) then seen else seen ++ [r])
      seen).map Relationship.guid).Nodup := by
  induction rs generalizing seen with
  | nil => exact h
  | cons r rs ih =>
      rw [List.foldl_cons]
      split
      · exact ih h
      · rename_i hany
        refine ih ?_
        rw [List.map_append, List.nodup_append]
        refine ⟨h, List.nodup_singleton _, ?_⟩
        rintro g hg g' hg' rfl
        obtain ⟨x, hx, hxg⟩ := List.mem_map.1 hg
        obtain rfl : g = r.guid := List.mem_singleton.1 hg'
        exact hany (List.any_eq_true.2 ⟨x, hx, beq_iff_eq.2 hxg⟩)

theorem nodup_distinct (rs : List Relationship) : ((distinct rs).map Relationship.guid).Nodup :=
  nodup_foldl_distinct rs List.nodup_nil

end Scope

namespace RelationshipMapping

/-- The records that a record refers to under a mapping. -/
def targets (k : RelationshipMapping) (r : Record) : List String :=
  match r.references k.one.navigationName with
  | .ok refs => (refs.filter (·.type = k.two.assetType)).map Reference.id
  | .error _ => []

/-- Mappings that can read one relationship from the same records. -/
def Overlaps (k k' : RelationshipMapping) : Prop :=
  k.type = k'.type ∧ k.isLevel = k'.isLevel ∧
    if k.isLevel then k.levelType = k'.levelType
    else s((k.one.assetType, k.one.mark), (k.two.assetType, k.two.mark)) =
      s((k'.one.assetType, k'.one.mark), (k'.two.assetType, k'.two.mark))

instance {k k' : RelationshipMapping} : Decidable (k.Overlaps k') :=
  inferInstanceAs (Decidable (_ ∧ _ ∧ _))

end RelationshipMapping

/-- No two mappings read one relationship from the same records. -/
def MappingTable.Separated (t : MappingTable) : Prop :=
  ∀ k ∈ t.relationships, ∀ k' ∈ t.relationships, k.Overlaps k' → k = k'

theorem MappingTable.separated_standard : standard.Separated := by
  have h : ∀ k ∈ standard.relationships, ∀ k' ∈ standard.relationships, k.Overlaps k' → k = k' := by
    decide +kernel
  exact h

/-- The catalog holds no reference twice, and no references to and fro where nothing but the
direction tells the ends of a mapping apart. -/
structure Catalog.Unrepeated (cat : Catalog) (t : MappingTable) : Prop where
  once : ∀ k ∈ t.relationships, k.kind = .reference → ∀ r ∈ cat.records.values, (k.targets r).Nodup
  oneWay : ∀ k ∈ t.relationships, k.kind = .reference → k.one.assetType = k.two.assetType →
    k.one.mark = k.two.mark → ∀ r ∈ cat.records.values, ∀ r' ∈ cat.records.values, r.id ≠ r'.id →
      r'.id ∈ k.targets r → r.id ∉ k.targets r'

namespace RelationshipMapping

variable {k : RelationshipMapping} {r : Record} {ls : List Link} {l : Link} {home : String}
  {i : RelationshipId}

/-- The records at the ends of a link, as its identity has them. -/
theorem Joins.exists_ends (hone : k.one.mark ≠ some "") (htwo : k.two.mark ≠ some "")
    (h : k.Joins l) (hi : l.identity home = .ok i) : ∃ a b, i.ends = s(a, b) ∧
      (a.assetType, a.mark) = (k.one.assetType, k.one.mark) ∧
      (b.assetType, b.mark) = (k.two.assetType, k.two.mark) := by
  obtain ⟨a, b, ha, hb, hends⟩ := Link.ends_of_plain h.level hi
  rw [Link.oneRef, h.mapping, RecordRef.of_eq_ok_of_mark hone, h.one] at ha
  rw [Link.twoRef, h.mapping, RecordRef.of_eq_ok_of_mark htwo, h.two] at hb
  obtain ⟨_, hat, _, ham⟩ := ha
  obtain ⟨_, hbt, _, hbm⟩ := hb
  exact ⟨a, b, hends, by rw [hat, ham], by rw [hbt, hbm]⟩

theorem mem_targets (hplain : k.isLevel = false) (h : k.links r k.origin = .ok ls) (hl : l ∈ ls) :
    l.one = r.ref ∧ (k.kind = .reference → l.two.id ∈ k.targets r) := by
  cases hk : k.kind with
  | self =>
      simp only [links, hk] at h
      cases h
      obtain ⟨_, rfl⟩ := mem_selfLinks hl
      refine ⟨rfl, ?_⟩
      rintro ⟨⟩
  | level => simp [isLevel, hk] at hplain
  | reference =>
      simp only [links, origin, hk] at h
      obtain ⟨_, refs, hrefs, x, hx, htype, rfl⟩ := mem_linksFromOne h hl
      refine ⟨rfl, fun _ => ?_⟩
      rw [targets, hrefs]
      exact List.mem_map_of_mem (List.mem_filter.2 ⟨hx, decide_eq_true htype⟩)

/-- Links of one record lead to different targets, if it refers to none of them twice. -/
theorem pairwise_links (hu : k.kind = .reference → (k.targets r).Nodup)
    (h : k.links r k.origin = .ok ls) : ls.Pairwise fun l l' => l.two.id ≠ l'.two.id := by
  cases hk : k.kind with
  | self =>
      simp only [links, hk] at h
      cases h
      rw [selfLinks]
      split <;> simp
  | level =>
      simp only [links, hk] at h
      cases ls with
      | nil => exact .nil
      | cons l ls =>
          rw [(mem_levelLinks h List.mem_cons_self).2.1]
          exact List.pairwise_singleton _ _
  | reference =>
      simp only [links, origin, hk, linksFromOne] at h
      split at h
      · cases h
        exact .nil
      · obtain ⟨refs, hrefs, h⟩ := Attempt.bind_eq_ok.1 h
        cases h
        have hnodup := hu hk
        rw [targets, hrefs] at hnodup
        exact List.pairwise_map.2 (List.pairwise_map.1 hnodup)

end RelationshipMapping

namespace Collection

open RelationshipMapping Session

variable {c : Collection} {s : Service} {k k' : RelationshipMapping} {r r' : Record} {l l' : Link}
  {x x' : Relationship}

/-- A relationship is that of a link of a record, read off under a mapping. -/
structure Stems (c : Collection) (s : Service) (k : RelationshipMapping) (r : Record) (l : Link)
    (x : Relationship) : Prop where
  mapped : k ∈ c.table.relationships
  stored : r ∈ s.catalog.records.values
  link : ∃ ls, k.links r k.origin = .ok ls ∧ l ∈ ls
  made : l.relationship? c.home c.table = .ok (some x)

section Apart

variable (ht : c.table.Accepted) (hv : ∀ k ∈ c.table.relationships, k.fault? = none)
  (hk : s.catalog.Keyed) (hsep : c.table.Separated) (hu : s.catalog.Unrepeated c.table)

include ht hv hk hsep hu

/-- Links that no record stands for have one identity only if they are read under one mapping off
one record. -/
theorem eq_of_joins {i : RelationshipId} (h : c.Stems s k r l x) (h' : c.Stems s k' r' l' x')
    (hplain : k.isLevel = false) (hplain' : k'.isLevel = false) (hj : k.Joins l) (hj' : k'.Joins l')
    (hi : l.identity c.home = .ok i) (hi' : l'.identity c.home = .ok i) :
    k = k' ∧ r = r' ∧ l.two.id = l'.two.id := by
  have hmark := ht.mark_ne_of_end h.mapped
  have hmark' := ht.mark_ne_of_end h'.mapped
  obtain rfl : k = k' := by
    obtain ⟨a, b, hends, ha, hb⟩ := hj.exists_ends (hmark .one) (hmark .two) hi
    obtain ⟨a', b', hends', ha', hb'⟩ := hj'.exists_ends (hmark' .one) (hmark' .two) hi'
    refine hsep k h.mapped k' h'.mapped ⟨?_, hplain.trans hplain'.symm, ?_⟩
    · rw [← hj.mapping, ← hj'.mapping, ← (Link.identity_data hi).2.1, (Link.identity_data hi').2.1]
    · rw [hplain, if_neg Bool.false_ne_true, ← ha, ← hb, ← ha', ← hb']
      have heq := congrArg (Sym2.map fun a => (a.assetType, a.mark)) (hends.symm.trans hends')
      simpa using heq
  obtain ⟨ls, hls, hl⟩ := h.link
  obtain ⟨ls', hls', hl'⟩ := h'.link
  obtain ⟨hone, htarget⟩ := mem_targets hplain hls hl
  obtain ⟨hone', htarget'⟩ := mem_targets hplain hls' hl'
  have hid : l.one.id = r.id := congrArg Reference.id hone
  have hid' : l'.one.id = r'.id := congrArg Reference.id hone'
  refine ⟨rfl, ?_⟩
  rcases (hj.ends_eq_iff (hmark .one) (hmark .two) hj' hi hi').1 rfl with
    ⟨hsame, htwo⟩ | ⟨htype, hmarks, hforth, hback⟩
  · exact ⟨hk.eq_of_id h.stored h'.stored (hid.symm.trans (hsame.trans hid')), htwo⟩
  · -- The links lead to and fro, which only references between two records could do.
    by_cases hrr : r.id = r'.id
    · exact ⟨hk.eq_of_id h.stored h'.stored hrr, by rw [← hforth, hback, hid', hid, hrr]⟩
    · cases hkind : k.kind with
      | self => exact absurd hmarks (ends_of_self (hv k h.mapped) hkind).2
      | level => simp [isLevel, hkind] at hplain
      | reference =>
          have hto := htarget hkind
          have hfro := htarget' hkind
          rw [← hforth, hid'] at hto
          rw [hback, hid] at hfro
          exact absurd hfro
            (hu.oneWay k h.mapped hkind htype hmarks r h.stored r' h'.stored hrr hto)

omit ht hv hu in
/-- Links that records stand for have one identity only if they are read under one mapping off one
record. -/
theorem eq_of_levels {i : RelationshipId} (h : c.Stems s k r l x) (h' : c.Stems s k' r' l' x')
    (hlevel : k.isLevel = true) (hlevel' : k'.isLevel = true) (hone : k.levelLinks r = .ok [l])
    (hone' : k'.levelLinks r' = .ok [l']) (hi : l.identity c.home = .ok i)
    (hi' : l'.identity c.home = .ok i) : k = k' ∧ r = r' ∧ l.two.id = l'.two.id := by
  obtain ⟨htype, _, _, _, _, _, _, _, _, hl⟩ := mem_levelLinks hone List.mem_cons_self
  obtain ⟨htype', _, _, _, _, _, _, _, _, hl'⟩ := mem_levelLinks hone' List.mem_cons_self
  obtain ⟨a, ha, hat, hai⟩ := Link.ends_of_level (x := r.ref) (by rw [hl]) hi
  obtain ⟨a', ha', hat', hai'⟩ := Link.ends_of_level (x := r'.ref) (by rw [hl']) hi'
  have haa : a = a' := (Sym2.eq_iff.1 (ha.symm.trans ha')).elim And.left And.left
  have hrr : r = r' := hk.eq_of_id h.stored h'.stored (hai.symm.trans ((congrArg _ haa).trans hai'))
  subst hrr
  obtain rfl : k = k' := by
    refine hsep k h.mapped k' h'.mapped ⟨?_, hlevel.trans hlevel'.symm, ?_⟩
    · have hm : l.mapping = k := by rw [hl]
      have hm' : l'.mapping = k' := by rw [hl']
      rw [← hm, ← hm', ← (Link.identity_data hi).2.1, (Link.identity_data hi').2.1]
    · rw [if_pos hlevel, ← htype, ← htype']
  rw [hone] at hone'
  cases hone'
  exact ⟨rfl, rfl, rfl⟩

/-- Relationships of one identifier are read under one mapping off one record. -/
theorem Stems.eq_of_guid (h : c.Stems s k r l x) (h' : c.Stems s k' r' l' x')
    (hguid : x.guid = x'.guid) : k = k' ∧ r = r' ∧ l.two.id = l'.two.id := by
  obtain ⟨i, hi, hg⟩ := Link.identifies_of_relationship h.made
  obtain ⟨i', hi', hg'⟩ := Link.identifies_of_relationship h'.made
  obtain rfl : i = i' := RelationshipId.eq_of_guid_eq hg (hguid ▸ hg')
  obtain ⟨ls, hls, hl⟩ := h.link
  obtain ⟨ls', hls', hl'⟩ := h'.link
  have hflag : l.level.isSome = l'.level.isSome :=
    (Link.identity_data hi).2.2.symm.trans (Link.identity_data hi').2.2
  rcases joins_or_levelLinks (hv k h.mapped) hls hl with ⟨hp, hj⟩ | ⟨hp, hone⟩
  · rcases joins_or_levelLinks (hv k' h'.mapped) hls' hl' with ⟨hp', hj'⟩ | ⟨hp', hone'⟩
    · exact eq_of_joins ht hv hk hsep hu h h' hp hp' hj hj' hi hi'
    · obtain ⟨_, _, _, _, _, _, _, _, _, rfl⟩ := mem_levelLinks hone' List.mem_cons_self
      rw [hj.level] at hflag
      cases hflag
  · rcases joins_or_levelLinks (hv k' h'.mapped) hls' hl' with ⟨hp', hj'⟩ | ⟨hp', hone'⟩
    · obtain ⟨_, _, _, _, _, _, _, _, _, rfl⟩ := mem_levelLinks hone List.mem_cons_self
      rw [hj'.level] at hflag
      cases hflag
    · exact eq_of_levels hk hsep h h' hp hp' hone hone' hi hi'

theorem pairwise_relationships {ls : List Link} {xs : List Relationship}
    (hkt : k ∈ c.table.relationships) (hr : r ∈ s.catalog.records.values)
    (hls : k.links r k.origin = .ok ls) (hxs : Link.relationships c.home c.table ls = .ok xs) :
    xs.Pairwise fun x y => x.guid ≠ y.guid := by
  obtain ⟨os, hos, h⟩ := Attempt.bind_eq_ok.1 hxs
  cases h
  rw [List.pairwise_filterMap]
  refine pairwise_of_forall₂ (Attempt.mapM_eq_ok.1 hos)
    (pairwise_links (hu.once k hkt · r hr) hls) ?_
  rintro l hl l' hl' hne _ _ ho ho' x rfl y rfl hguid
  exact hne (Stems.eq_of_guid ht hv hk hsep hu ⟨hkt, hr, ⟨ls, hls, hl⟩, ho⟩
    ⟨hkt, hr, ⟨ls, hls, hl'⟩, ho'⟩ hguid).2.2

end Apart

def relationshipReader (c : Collection) (s : Service) (n : NativeSearch) :
    Option (Record → Attempt (List Relationship)) :=
  n.relationshipMapping.map (c.scope s).readRelationships

/-- What is read off a hit are the relationships of the links of its record. -/
theorem exists_record_of_hit {n : NativeSearch} {hits : List Record} (hv : k.fault? = none)
    (hn : n.IsForLinks k) (hhits : (c.scope s).backend.answer n = .ok hits) (hr : r ∈ hits) :
    ∃ r' ∈ s.catalog.records.values, r'.id = r.id ∧ ∀ xs,
      (c.scope s).readRelationships k r = .ok xs →
        ∃ ls, k.links r' k.origin = .ok ls ∧ Link.relationships c.home c.table ls = .ok xs := by
  obtain ⟨r', hr', rfl, _⟩ := Catalog.mem_search (Service.answer_bounded.1 hhits).2 r hr
  refine ⟨r', hr', (r'.project_id _).symm, fun xs hxs => ?_⟩
  have hlinks : k.links (r'.project n.properties) k.origin = k.links r' k.origin := by
    rw [hn.properties]
    exact Catalog.links_hit hv r'
  change (k.links (r'.project _) k.origin >>= Link.relationships c.home c.table) = .ok xs at hxs
  rw [hlinks] at hxs
  exact Attempt.bind_eq_ok.1 hxs

/-- The searches of a plan are for different mappings. -/
def Separate (ns : List NativeSearch) : Prop :=
  ns.Pairwise fun n n' => n.relationshipMapping ≠ n'.relationshipMapping

theorem nodup_relationshipsFor {t : MappingTable} {type : Option String}
    {ks : List RelationshipMapping} (h : t.relationshipsFor type = .ok ks) : ks.Nodup := by
  have hall : t.relationships.Nodup := nodup_firsts _
  cases type with
  | none =>
      cases h
      exact hall
  | some T =>
      obtain ⟨_, _, h⟩ := Attempt.bind_eq_ok.1 h
      simp only at h
      split at h
      · cases h
      · cases h
        exact hall.filter _

theorem separate_of_surveys {p : Planner} {type : Option String} {plan : SearchPlan}
    (h : p.Surveys type plan) : Separate plan.searches := by
  obtain ⟨ks, os, hks, hos, hplan⟩ := h
  rw [hplan, Separate, List.pairwise_filterMap]
  refine pairwise_of_forall₂ hos (nodup_relationshipsFor hks) ?_
  rintro k _ k' _ hne _ _ hsearch hsearch' n rfl n' rfl he
  obtain ⟨_, hf⟩ := hsearch n rfl
  obtain ⟨_, hf'⟩ := hsearch' n' rfl
  rw [(Planner.relationshipSearch_isForLinks hf).mapping,
    (Planner.relationshipSearch_isForLinks hf').mapping] at he
  exact hne (Option.some.inj he)

section Found

variable (ht : c.table.Accepted) (hv : ∀ k ∈ c.table.relationships, k.fault? = none)
  (hk : s.catalog.Keyed) (hsep : c.table.Separated) (hu : s.catalog.Unrepeated c.table)

include ht hv hk hsep hu

theorem pairwise_collected {n : NativeSearch} {hits : List Record} {room : Option Nat}
    {xs : List Relationship} (hkt : k ∈ c.table.relationships) (hn : n.IsForLinks k)
    (hhits : (c.scope s).backend.answer n = .ok hits)
    (h : Scope.collect ((c.scope s).readRelationships k) room hits = .ok xs) :
    xs.Pairwise fun x y => x.guid ≠ y.guid := by
  refine Scope.pairwise_collect (fun r hr us hus => ?_) ?_ h
  · obtain ⟨r', hr', _, hread⟩ := exists_record_of_hit (hv k hkt) hn hhits hr
    obtain ⟨ls, hls, hus⟩ := hread us hus
    exact pairwise_relationships ht hv hk hsep hu hkt hr' hls hus
  · have hids := List.pairwise_map.1 (Catalog.nodup_search hk (Service.answer_bounded.1 hhits).2)
    refine hids.imp_of_mem fun {r q} hr hq hne us ws hus hws x hx y hy hguid => hne ?_
    obtain ⟨r', hr', hid, hread⟩ := exists_record_of_hit (hv k hkt) hn hhits hr
    obtain ⟨q', hq', hid', hread'⟩ := exists_record_of_hit (hv k hkt) hn hhits hq
    obtain ⟨ls, hls, hus⟩ := hread us hus
    obtain ⟨ls', hls', hws⟩ := hread' ws hws
    obtain ⟨l, hl, hmade⟩ := (Scope.mem_relationships hus).1 hx
    obtain ⟨l', hl', hmade'⟩ := (Scope.mem_relationships hws).1 hy
    rw [← hid, ← hid', (Stems.eq_of_guid ht hv hk hsep hu ⟨hkt, hr', ⟨ls, hls, hl⟩, hmade⟩
      ⟨hkt, hq', ⟨ls', hls', hl'⟩, hmade'⟩ hguid).2.1]

omit ht hk hsep hu in
theorem stems_of_finds {n : NativeSearch} (hkt : k ∈ c.table.relationships) (hn : n.IsForLinks k)
    (h : (c.scope s).Finds (c.relationshipReader s) n x) : ∃ r l, c.Stems s k r l x := by
  obtain ⟨f, hf, hits, hhits, r, hr, xs, hxs, hx⟩ := h
  rw [relationshipReader, hn.mapping, Option.map_some] at hf
  cases hf
  obtain ⟨r', hr', _, hread⟩ := exists_record_of_hit (hv k hkt) hn hhits hr
  obtain ⟨ls, hls, hxs⟩ := hread xs hxs
  obtain ⟨l, hl, hmade⟩ := (Scope.mem_relationships hxs).1 hx
  exact ⟨r', l, hkt, hr', ⟨ls, hls, hl⟩, hmade⟩

/-- A plan answers each relationship once, whatever its window. -/
theorem nodup_runRelationships {type : Option String} {p : SearchPlan} {xs : List Relationship}
    {st : SessionState} (hp : c.planner.Surveys type p)
    (h : (runFrom st ((c.scope s).runRelationships p)).1 = .ok xs) :
    (xs.map Relationship.guid).Nodup := by
  rw [Scope.runRelationships, (c.scope s).yields_run, Attempt.bind_eq_ok] at h
  obtain ⟨zs, hzs, h⟩ := h
  cases h
  change (c.scope s).gather (c.relationshipReader s) _ _ = .ok zs at hzs
  refine ((Catalog.page_sublist _ _ zs).map _).nodup (List.pairwise_map.2 ?_)
  refine Scope.pairwise_gather (fun n hn f hf hits hhits room us hus => ?_) ?_ hzs
  · obtain ⟨k, hkt, hfor⟩ := hp.sound n hn
    rw [relationshipReader, hfor.mapping, Option.map_some] at hf
    cases hf
    exact pairwise_collected ht hv hk hsep hu hkt hfor hhits hus
  · refine (separate_of_surveys hp).imp_of_mem fun {n n'} hn hn' hne x y hx hy hguid => hne ?_
    obtain ⟨k, hkt, hfor⟩ := hp.sound n hn
    obtain ⟨k', hkt', hfor'⟩ := hp.sound n' hn'
    obtain ⟨r, l, hstems⟩ := stems_of_finds hv hkt hfor hx
    obtain ⟨r', l', hstems'⟩ := stems_of_finds hv hkt' hfor' hy
    rw [hfor.mapping, hfor'.mapping, (hstems.eq_of_guid ht hv hk hsep hu hstems' hguid).1]

theorem nodup_findRelationships {q : RelationshipSearch} {xs : List Relationship}
    (h : (runFrom {} (c.findRelationships s q)).1 = .ok xs) :
    (xs.map Relationship.guid).Nodup := by
  obtain ⟨p, st, hplan, h⟩ := runFrom_bind_eq_ok.1 h
  rw [runFrom_ofAttempt] at hplan
  have hplan : c.planner.planRelationships q none = .ok p := congrArg Prod.fst hplan
  exact nodup_runRelationships ht hv hk hsep hu (Planner.planRelationships_surveys hplan) h

theorem nodup_findRelationshipsByText {type : Option String} {value : String} {w : Window}
    {historical : Bool} {xs : List Relationship}
    (h : (runFrom {} (c.findRelationshipsByText s type value w historical)).1 = .ok xs) :
    (xs.map Relationship.guid).Nodup := by
  obtain ⟨_, _, _, h⟩ := runFrom_bind_eq_ok.1 h
  obtain ⟨ts, _, _, h⟩ := runFrom_bind_eq_ok.1 h
  obtain ⟨reported, _, _, h⟩ := runFrom_bind_eq_ok.1 h
  obtain ⟨p, st, hplan, h⟩ := runFrom_bind_eq_ok.1 h
  rw [runFrom_ofAttempt] at hplan
  have hplan : c.planner.planRelationshipText type value reported w none = .ok p :=
    congrArg Prod.fst hplan
  exact nodup_runRelationships ht hv hk hsep hu (Planner.planRelationshipText_surveys hplan) h

end Found

theorem sequenced_perm (w : Window) (xs : List Relationship) : (sequenced w xs).Perm xs := by
  rw [sequenced]
  split
  · exact sortBy_perm xs
  · exact .refl xs
  · exact sortBy_perm xs
  · exact sortBy_perm xs

theorem nodup_relationshipPage {guid : String} {type : Option String} {w : Window}
    {historical : Bool} {xs : List Relationship}
    (h : (runFrom {} (c.relationshipPage s guid type w historical)).1 = .ok xs) :
    (xs.map Relationship.guid).Nodup := by
  obtain ⟨_, _, _, h⟩ := runFrom_bind_eq_ok.1 h
  obtain ⟨ys, st, hlist, h⟩ := runFrom_bind_eq_ok.1 h
  cases h
  obtain ⟨_, hlist⟩ := runFrom_relationshipsOf_eq_ok.1 hlist
  obtain ⟨p, _, _, hlist⟩ := runFrom_bind_eq_ok.1 (congrArg Prod.fst hlist)
  obtain ⟨ls, _, _, hlist⟩ := runFrom_bind_eq_ok.1 hlist
  obtain ⟨rs, _, _, hlist⟩ := runFrom_bind_eq_ok.1 hlist
  cases hlist
  refine ((Catalog.page_sublist _ _ _).map _).nodup ?_
  exact ((sequenced_perm w _).map _).nodup_iff.2 (Scope.nodup_distinct rs)

/-- A listing for an entity answers each relationship once. A search does so where no reference is
held twice, none is answered in the other direction under a mapping that does not tell its ends
apart, and no two mappings read one relationship from the same records. -/
theorem relationships_once (c : Collection) (s : Service) :
    (∀ guid type w historical xs,
      (c.answer s (.relationships guid type w historical)).1 = .ok (.value xs) →
        (xs.map Relationship.guid).Nodup) ∧
    (c.table.Accepted → (∀ k ∈ c.table.relationships, k.checked = .ok k) → s.catalog.Keyed →
      c.table.Separated → s.catalog.Unrepeated c.table →
      (∀ q xs, (c.answer s (.findRelationships q)).1 = .ok (.value xs) →
        (xs.map Relationship.guid).Nodup) ∧
      ∀ type value w historical xs,
        (c.answer s (.findRelationshipsByText type value w historical)).1 = .ok (.value xs) →
          (xs.map Relationship.guid).Nodup) := by
  refine ⟨fun guid type w historical xs h => nodup_relationshipPage (answer_eq_value.1 h),
    fun ht hv hk hsep hu => ?_⟩
  have hfault : ∀ k ∈ c.table.relationships, k.fault? = none := fun k hkt =>
    fault?_of_checked (hv k hkt)
  exact ⟨fun q xs h => nodup_findRelationships ht hfault hk hsep hu (answer_eq_value.1 h),
    fun type value w historical xs h =>
      nodup_findRelationshipsByText ht hfault hk hsep hu (answer_eq_value.1 h)⟩

end Collection

namespace Sample

/-- A database that refers to its schema twice. -/
def repeatingService : Service :=
  { catalog := (({} : Catalog).put
      { ref := databaseRef,
        properties :=
          [("database_schemas", .list [.reference schemaRef, .reference schemaRef])] }).put
      { ref := schemaRef } }

theorem unrepeated_linkedService : linkedService.catalog.Unrepeated MappingTable.standard where
  once := by decide +kernel
  oneWay := by decide +kernel

/-- All relationships of a catalog without repeated references are found, each once. -/
theorem relationships_once_linked : ∃ found,
    allLinks collection linkedService = .ok (.value found) ∧
    found.length = 3 ∧ (found.map Relationship.guid).Nodup := by
  obtain ⟨found, hfound, hguids⟩ := exists_of_relationshipGuids guids_allLinks
  have hlength : found.length = 3 := by
    rw [← List.length_map (f := Relationship.guid), hguids]
    rfl
  obtain ⟨_, hsearch⟩ := Collection.relationships_once collection linkedService
  obtain ⟨honce, _⟩ := hsearch MappingTable.accepted_standard MappingTable.checked_relationships
    consistent_linkedService.keyed MappingTable.separated_standard unrepeated_linkedService
  exact ⟨found, hfound, hlength, honce {} found hfound⟩

/-- A schema that its database refers to twice is found twice, and listed once. -/
theorem schema_found_twice : MappingTable.standard.Accepted ∧ repeatingService.catalog.Keyed ∧
    (∃ found, (collection.answer repeatingService
        (.findRelationships { type := some "DataContentForDataSet" })).1 = .ok (.value found) ∧
      ¬(found.map Relationship.guid).Nodup) ∧
    ∃ listed, (collection.answer repeatingService (.relationships "e:home-1::database:database-1"
        (some "DataContentForDataSet") {} false)).1 = .ok (.value listed) ∧
      listed.map Relationship.guid = [schemaGuid] := by
  obtain ⟨found, hfound, hguids⟩ := exists_of_relationshipGuids
    (show relationshipGuids (collection.answer repeatingService
      (.findRelationships { type := some "DataContentForDataSet" })).1 =
        some [schemaGuid, schemaGuid] by decide +kernel)
  obtain ⟨listed, hlisted, hguids'⟩ := exists_of_relationshipGuids
    (show relationshipGuids (collection.answer repeatingService
      (.relationships "e:home-1::database:database-1" (some "DataContentForDataSet") {} false)).1 =
        some [schemaGuid] by decide +kernel)
  refine ⟨MappingTable.accepted_standard,
    Catalog.keyed_put (Catalog.keyed_put Catalog.keyed_empty _) _, ⟨found, hfound, ?_⟩, listed,
    hlisted, hguids'⟩
  rw [hguids]
  decide

end Sample

end MetaFed
