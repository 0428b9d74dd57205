import MetaFed.Plan.Entities
import MetaFed.Plan.Relationships
import MetaFed.Proofs.Table

/-!
The searches of a plan: one for each of some distinct mappings that have records, in their order,
or one for each of some relationship mappings.
-/

namespace MetaFed

def Distinct (ms : List EntityMapping) : Prop :=
  ms.Pairwise fun m n => m.abstractType ≠ n.abstractType

theorem Distinct.sublist {ms ns : List EntityMapping} (h : Distinct ns) (hs : ms.Sublist ns) :
    Distinct ms := List.Pairwise.sublist hs h

namespace MappingTable

variable {t : MappingTable} {name : String} {ms : List EntityMapping}

theorem distinct_mappings (ht : t.Accepted) : Distinct t.mappings :=
  ht.pairwise.imp fun h => h.1

theorem distinct_backed (ht : t.Accepted) : Distinct (backed t.mappings) :=
  (distinct_mappings ht).sublist List.filter_sublist

theorem forAbstract_eq_some {m : EntityMapping} (h : t.forAbstract name = some m) :
    m ∈ t.mappings ∧ m.abstractType = name :=
  ⟨List.mem_of_find?_eq_some h, by simpa using List.find?_some h⟩

theorem mem_subtree {m : EntityMapping} (h : m ∈ t.subtree name) : m ∈ t.mappings := by
  rcases List.mem_append.1 h with h | h
  · exact (forAbstract_eq_some (Option.mem_toList.1 h)).1
  · exact (List.mem_filter.1 h).1

theorem distinct_subtree (ht : t.Accepted) (name : String) : Distinct (t.subtree name) := by
  refine List.pairwise_append.2 ⟨?_, (distinct_mappings ht).sublist List.filter_sublist, ?_⟩
  · cases t.forAbstract name <;> simp
  · intro m hm n hn e
    rw [(forAbstract_eq_some (Option.mem_toList.1 hm)).2] at e
    simpa [← e] using (List.mem_filter.1 hn).2

def below (t : MappingTable) : Option String → List EntityMapping
  | none => t.mappings
  | some name => t.subtree name

theorem expand_eq_ok {type : Option String} {within : List String}
    (h : t.expand type within = .ok ms) :
    ms = (t.below type).filter fun m => t.isEligible m within := by
  simp only [expand] at h
  obtain ⟨_, _, h⟩ := Attempt.bind_eq_ok.1 h
  cases type with
  | none => exact (Except.ok.inj h).symm
  | some name =>
      simp only [Attempt.bind_eq_ok] at h
      obtain ⟨_, _, h⟩ := h
      split at h
      · cases h
      split at h
      · cases h
      · exact (Except.ok.inj h).symm

theorem distinct_below (ht : t.Accepted) (type : Option String) : Distinct (t.below type) := by
  cases type with
  | none => exact distinct_mappings ht
  | some name => exact distinct_subtree ht name

theorem mem_below {type : Option String} {m : EntityMapping} (h : m ∈ t.below type) :
    m ∈ t.mappings := by
  cases type with
  | none => exact h
  | some name => exact mem_subtree h

theorem not_isSentinel_of_isEligible {m : EntityMapping} {within : List String}
    (h : t.isEligible m within = true) : m.isSentinel = false := by
  simp only [isEligible, Bool.and_eq_true, Bool.not_eq_true'] at h
  exact h.1.1.1

end MappingTable

namespace Planner

open MappingTable

variable {p : Planner} {s : EntitySearch} {ms : List EntityMapping}

theorem owners_sublist {kind : LiteralKind} {literal : String}
    (h : p.owners? kind literal = some ms) : ms.Sublist (backed p.table.mappings) := by
  have one (assetType : String) (mark : Option String) :
      (p.table.forIdentity assetType mark).toList.Sublist (backed p.table.mappings) := by
    cases hf : p.table.forIdentity assetType mark with
    | none => exact List.nil_sublist _
    | some m => exact List.singleton_sublist.2 (forIdentity_eq_some hf).1
  cases kind with
  | exact =>
      obtain ⟨q, _, rfl⟩ := Option.map_eq_some_iff.1 h
      exact one q.assetType q.mark
  | endsWith =>
      simp only [owners?] at h
      split at h
      · split at h
        · cases h
        · cases h
          exact List.filter_sublist
      · cases h
  | startsWith =>
      simp only [owners?] at h
      split at h
      · cases h
      · obtain ⟨⟨a, mark⟩, _, rfl⟩ := Option.map_eq_some_iff.1 h
        exact one a mark
  | contains => cases h

/-- A qualified name leads to mappings that the request accepts. -/
theorem shortcut_cases (h : p.shortcut? s = .ok (some ms)) :
    ms = [] ∨ ∃ kind literal ns, p.owners? kind literal = some ns ∧ ms = ns.filter (p.accepts s) := by
  rw [shortcut?] at h
  split at h
  · cases h
  · obtain ⟨_, _, h⟩ := Attempt.bind_eq_ok.1 h
    split at h
    · cases h
      exact .inl rfl
    · obtain ⟨ns, hn, rfl⟩ := Option.map_eq_some_iff.1 (Except.ok.inj h)
      exact .inr ⟨_, _, ns, hn, rfl⟩

theorem shortcut_sublist (h : p.shortcut? s = .ok (some ms)) :
    ms.Sublist (backed p.table.mappings) := by
  obtain rfl | ⟨kind, literal, ns, hn, rfl⟩ := shortcut_cases h
  · exact List.nil_sublist _
  · exact List.filter_sublist.trans (owners_sublist hn)

theorem candidates_backed (h : p.candidates s = .ok ms) :
    ∀ m ∈ ms, m ∈ backed p.table.mappings := by
  obtain ⟨o, ho, h⟩ := Attempt.bind_eq_ok.1 h
  cases o with
  | some ns =>
      cases h
      exact fun m hm => (shortcut_sublist ho).subset hm
  | none =>
      rw [expand_eq_ok h]
      intro m hm
      obtain ⟨hm, he⟩ := List.mem_filter.1 hm
      exact mem_backed.2 ⟨mem_below hm, not_isSentinel_of_isEligible he⟩

theorem distinct_candidates (ht : p.table.Accepted) (h : p.candidates s = .ok ms) :
    Distinct ms := by
  obtain ⟨o, ho, h⟩ := Attempt.bind_eq_ok.1 h
  cases o with
  | some ns =>
      cases h
      exact (distinct_backed ht).sublist (shortcut_sublist ho)
  | none =>
      rw [expand_eq_ok h]
      exact (distinct_below ht s.type).sublist List.filter_sublist

end Planner

/-- A search finds the entities of a mapping, with the properties the mapping reads. -/
structure NativeSearch.IsFor (n : NativeSearch) (m : EntityMapping) : Prop where
  types : n.types = [m.assetType]
  properties : n.properties = m.projected
  mapping : n.mapping = some m

namespace Planner

variable {p : Planner} {s : EntitySearch} {ms : List EntityMapping} {m : EntityMapping}
  {ns : List NativeSearch} {n : NativeSearch}

/-- The searches of some mappings, all their hits asked for. -/
def Unpaged (ms : List EntityMapping) (ns : List NativeSearch) : Prop :=
  List.Forall₂ (fun m n => NativeSearch.IsFor n m ∧ n.start = 0 ∧ n.pageSize = 0) ms ns

section Assemble

variable {f : Folded} {group : Option ClassificationGroup} {w : Window}

/-- How one search is assembled, if it ends well. -/
theorem assemble_cases {o : Option NativeSearch} (h : p.assemble m f group w = .ok o) :
    (o = none ∧ f.isNever = true) ∨
      ∃ g, p.foldClassifications m group = .ok g ∧ ((o = none ∧ g.isNever = true) ∨
        ∃ sorts, sortKeys m w = .ok sorts ∧ f.isNever = false ∧ g.isNever = false ∧
          o = some { types := [m.assetType], conditions := whereClause m f g,
                     properties := m.projected, sorts, mapping := some m }) := by
  rw [assemble] at h
  split at h
  · rename_i hf
    cases h
    exact .inl ⟨rfl, hf⟩
  · rename_i hf
    obtain ⟨g, hg, h⟩ := Attempt.bind_eq_ok.1 h
    refine .inr ⟨g, hg, ?_⟩
    split at h
    · rename_i hnever
      cases h
      exact .inl ⟨rfl, hnever⟩
    · rename_i hnever
      obtain ⟨sorts, hsorts, h⟩ := Attempt.bind_eq_ok.1 h
      cases h
      exact .inr ⟨sorts, hsorts, Bool.eq_false_iff.2 hf, Bool.eq_false_iff.2 hnever, rfl⟩

theorem assemble_eq_some (h : p.assemble m f group w = .ok (some n)) :
    ∃ g sorts, p.foldClassifications m group = .ok g ∧ sortKeys m w = .ok sorts ∧
      n = { types := [m.assetType], conditions := whereClause m f g, properties := m.projected,
            sorts, mapping := some m } := by
  obtain ⟨hn, _⟩ | ⟨g, hg, ⟨hn, _⟩ | ⟨sorts, hsorts, _, _, hn⟩⟩ := assemble_cases h
  · cases hn
  · cases hn
  · exact ⟨g, sorts, hg, hsorts, Option.some.inj hn⟩

theorem assemble_isFor (h : p.assemble m f group w = .ok (some n)) :
    n.IsFor m ∧ n.start = 0 ∧ n.pageSize = 0 := by
  obtain ⟨_, _, _, _, rfl⟩ := assemble_eq_some h
  exact ⟨⟨rfl, rfl, rfl⟩, rfl, rfl⟩

end Assemble

theorem entitySearch_eq_some (h : p.entitySearch s m = .ok (some n)) :
    ∃ f k, PropertyGroup.foldOption (p.resolver m) s.properties = .ok f ∧
      p.assemble m f.folded s.classifications s.window = .ok (some k) ∧
        (n = { k with residual := s.properties } ∨ n = k) := by
  obtain ⟨f, hf, h⟩ := Attempt.bind_eq_ok.1 h
  obtain ⟨o, ho, h⟩ := Attempt.bind_eq_ok.1 h
  obtain ⟨k, rfl, rfl⟩ := Option.map_eq_some_iff.1 (Except.ok.inj h)
  refine ⟨f, k, hf, ho, ?_⟩
  split
  · exact .inl rfl
  · exact .inr rfl

theorem entitySearch_isFor (h : p.entitySearch s m = .ok (some n)) :
    n.IsFor m ∧ n.start = 0 ∧ n.pageSize = 0 := by
  obtain ⟨f, k, _, hk, rfl | rfl⟩ := entitySearch_eq_some h
  · obtain ⟨hfor, h0, h1⟩ := assemble_isFor hk
    exact ⟨⟨hfor.types, hfor.properties, hfor.mapping⟩, h0, h1⟩
  · exact assemble_isFor hk

section Text

variable {value : String} {reported : StringProperties} {excluded : List String}

theorem textSearch_eq_some (h : p.textSearch s value reported excluded m = .ok (some n)) :
    ∃ f, anyMatches (textPaths m ((Assoc.find? m.assetType reported).getD []) excluded) value =
        .ok f ∧ p.assemble m f s.classifications s.window = .ok (some n) := by
  rw [textSearch] at h
  split at h
  · cases h
  · exact Attempt.bind_eq_ok.1 h

theorem textSearch_isFor (h : p.textSearch s value reported excluded m = .ok (some n)) :
    n.IsFor m ∧ n.start = 0 ∧ n.pageSize = 0 := by
  obtain ⟨_, _, h⟩ := textSearch_eq_some h
  exact assemble_isFor h

end Text

/-- The searches of a request, before the window is applied. -/
def searches (p : Planner) (s : EntitySearch) (operation : Option String) :
    Attempt (List NativeSearch) := do
  (checkRequest s.historical s.properties).within operation
  let ms ← (p.candidates s).within operation
  .ok ((← ms.mapM (p.entitySearch s)).filterMap id)

theorem planEntities_eq (operation : Option String) : p.planEntities s operation =
    p.searches s operation >>= fun ns => .ok (planOf ns s.window) := by
  simp only [planEntities, searches, bind_assoc, Attempt.ok_bind]

theorem searches_eq_ok {operation : Option String} (h : p.searches s operation = .ok ns) :
    ∃ ms os, p.candidates s = .ok ms ∧ ms.mapM (p.entitySearch s) = .ok os ∧
      ns = os.filterMap id := by
  obtain ⟨_, _, h⟩ := Attempt.bind_eq_ok.1 h
  obtain ⟨ms, hms, h⟩ := Attempt.bind_eq_ok.1 h
  obtain ⟨os, hos, h⟩ := Attempt.bind_eq_ok.1 h
  exact ⟨ms, os, Attempt.within_eq_ok.1 hms, hos, (Except.ok.inj h).symm⟩

theorem unpaged_of_mapM {f : EntityMapping → Attempt (Option NativeSearch)}
    {os : List (Option NativeSearch)} (h : ms.mapM f = .ok os)
    (hf : ∀ m n, f m = .ok (some n) → n.IsFor m ∧ n.start = 0 ∧ n.pageSize = 0) :
    ∃ ms', ms'.Sublist ms ∧ Unpaged ms' (os.filterMap id) := by
  rw [Attempt.mapM_eq_ok] at h
  induction h with
  | nil => exact ⟨[], List.nil_sublist _, .nil⟩
  | @cons m o ms os ho _ ih =>
      obtain ⟨ms', hs, hu⟩ := ih
      cases o with
      | none => exact ⟨ms', hs.cons m, hu⟩
      | some n => exact ⟨m :: ms', hs.cons_cons m, .cons (hf m n ho) hu⟩

theorem searches_unpaged (ht : p.table.Accepted) {operation : Option String}
    (h : p.searches s operation = .ok ns) :
    ∃ ms, Unpaged ms ns ∧ Distinct ms ∧ ∀ m ∈ ms, m ∈ MappingTable.backed p.table.mappings := by
  obtain ⟨ms, os, hc, hos, rfl⟩ := searches_eq_ok h
  obtain ⟨ms', hs, hu⟩ := unpaged_of_mapM hos fun m n => entitySearch_isFor
  exact ⟨ms', hu, (distinct_candidates ht hc).sublist hs,
    fun m hm => candidates_backed hc m (hs.subset hm)⟩

/-- A search of which the leading hits are asked for, all of them where some are left to be
checked. -/
def leading (count : Nat) (n : NativeSearch) : NativeSearch :=
  { n with start := 0, pageSize := if n.residual.isSome then 0 else count }

theorem isFor_leading (count : Nat) (h : n.IsFor m) : (leading count n).IsFor m :=
  ⟨h.types, h.properties, h.mapping⟩

theorem forall₂_leading (count : Nat) (h : Unpaged ms ns) :
    List.Forall₂ (fun m n => NativeSearch.IsFor n m) ms (ns.map (leading count)) :=
  List.forall₂_map_right_iff.2 (h.imp fun _ _ hn => isFor_leading count hn.1)

theorem fanOut_eq (ns : List NativeSearch) (w : Window) :
    fanOut ns w = ⟨ns.map (leading w.needed), w.pageSize, w.start⟩ := rfl

/-- The catalog pages a lone search without residual; every other plan is paged by its window. -/
theorem planOf_cases (ns : List NativeSearch) (w : Window) : planOf ns w = fanOut ns w ∨
    ∃ n, ns = [n] ∧ n.residual = none ∧
      planOf ns w = ⟨[{ n with start := w.start, pageSize := w.pageSize }], w.pageSize, 0⟩ := by
  match ns with
  | [] => exact .inl rfl
  | [n] =>
      rw [planOf]
      split
      · exact .inl rfl
      · rename_i hr
        exact .inr ⟨n, rfl, by simpa using hr, rfl⟩
  | _ :: _ :: _ => exact .inl rfl

/-- A window cuts the searches of a plan and changes nothing else in them. -/
theorem mem_planOf {w : Window} (hn : n ∈ (planOf ns w).searches) :
    ∃ k ∈ ns, ∃ start pageSize, n = { k with start, pageSize } := by
  rcases planOf_cases ns w with h | ⟨k, rfl, _, h⟩
  · rw [h, fanOut_eq] at hn
    obtain ⟨k, hk, rfl⟩ := List.mem_map.1 hn
    exact ⟨k, hk, _, _, rfl⟩
  · rw [h] at hn
    exact ⟨k, List.mem_cons_self, _, _, List.mem_singleton.1 hn⟩

theorem planOf_of_start_eq_zero {w : Window} (hw : w.start = 0) (ns : List NativeSearch) :
    planOf ns w = ⟨ns.map (leading w.pageSize), w.pageSize, 0⟩ := by
  have hneeded : w.needed = w.pageSize := by
    rw [Window.needed, hw, Nat.zero_add]
    split
    · rename_i h0
      exact h0.symm
    · rfl
  rcases planOf_cases ns w with h | ⟨n, rfl, hr, h⟩
  · rw [h, fanOut_eq, hneeded, hw]
  · rw [h, hw, List.map_singleton, leading, hr]
    rfl

theorem leading_zero_of_unpaged (h : Unpaged ms ns) : ns.map (leading 0) = ns := by
  induction h with
  | nil => rfl
  | @cons m n ms ns hn _ ih =>
      obtain ⟨_, h0, h1⟩ := hn
      have hl : leading 0 n = n := by
        rw [leading, ite_self]
        cases n
        cases h0
        cases h1
        rfl
      rw [List.map_cons, hl, ih]

theorem planOf_unpaged (h : Unpaged ms ns) {w : Window} (hw : w.start = 0) (hp : w.pageSize = 0) :
    planOf ns w = ⟨ns, 0, 0⟩ := by
  rw [planOf_of_start_eq_zero hw, hp, leading_zero_of_unpaged h]

theorem forall₂_planOf (h : Unpaged ms ns) (w : Window) :
    List.Forall₂ (fun m n => NativeSearch.IsFor n m) ms (planOf ns w).searches := by
  rcases planOf_cases ns w with hp | ⟨n, rfl, _, hp⟩
  · rw [hp, fanOut_eq]
    exact forall₂_leading w.needed h
  · rw [hp]
    cases h with
    | cons hn hnil =>
        cases hnil
        exact .cons ⟨hn.1.types, hn.1.properties, hn.1.mapping⟩ .nil

theorem mem_planEntities {operation : Option String} {plan : SearchPlan}
    (h : p.planEntities s operation = .ok plan) (hn : n ∈ plan.searches) :
    ∃ ms, p.candidates s = .ok ms ∧ ∃ m ∈ ms, ∃ k, p.entitySearch s m = .ok (some k) ∧
      ∃ start pageSize, n = { k with start, pageSize } := by
  rw [planEntities_eq] at h
  obtain ⟨ns, hns, h⟩ := Attempt.bind_eq_ok.1 h
  cases h
  obtain ⟨ms, os, hc, hos, rfl⟩ := searches_eq_ok hns
  obtain ⟨k, hk, hcut⟩ := mem_planOf hn
  obtain ⟨m, hm, hsearch⟩ := Attempt.exists_of_mem_filterMap hos hk
  exact ⟨ms, hc, m, hm, k, hsearch, hcut⟩

section Text

variable {value : String} {reported : StringProperties} {version operation : Option String}
  {plan : SearchPlan}

theorem planText_cases (h : p.planText s value reported version operation = .ok plan) :
    ∃ ms os, p.candidates s = .ok ms ∧
      ms.mapM (p.textSearch s value reported
        ((Assoc.find? (version.getD "") p.exclusions).getD [])) = .ok os ∧
      plan = planOf (os.filterMap id) s.window := by
  obtain ⟨_, _, h⟩ := Attempt.bind_eq_ok.1 h
  obtain ⟨_, _, h⟩ := Attempt.bind_eq_ok.1 h
  obtain ⟨ms, hms, h⟩ := Attempt.bind_eq_ok.1 h
  obtain ⟨os, hos, h⟩ := Attempt.bind_eq_ok.1 h
  cases h
  exact ⟨ms, os, Attempt.within_eq_ok.1 hms, hos, rfl⟩

theorem mem_planText (h : p.planText s value reported version operation = .ok plan)
    (hn : n ∈ plan.searches) : ∃ ms, p.candidates s = .ok ms ∧ ∃ m ∈ ms, ∃ k,
      p.textSearch s value reported ((Assoc.find? (version.getD "") p.exclusions).getD []) m =
          .ok (some k) ∧ ∃ start pageSize, n = { k with start, pageSize } := by
  obtain ⟨ms, os, hms, hos, rfl⟩ := planText_cases h
  obtain ⟨k, hk, hcut⟩ := mem_planOf hn
  obtain ⟨m, hm, hsearch⟩ := Attempt.exists_of_mem_filterMap hos hk
  exact ⟨ms, hms, m, hm, k, hsearch, hcut⟩

end Text

/-- The searches of a plan are for distinct mappings of the table that have records. -/
def Sound (p : Planner) (plan : SearchPlan) : Prop :=
  ∃ ms, List.Forall₂ (fun m n => NativeSearch.IsFor n m) ms plan.searches ∧ Distinct ms ∧
    ∀ m ∈ ms, m ∈ MappingTable.backed p.table.mappings

theorem planEntities_sound (ht : p.table.Accepted) {operation : Option String} {plan : SearchPlan}
    (h : p.planEntities s operation = .ok plan) : p.Sound plan := by
  rw [planEntities_eq] at h
  obtain ⟨ns, hns, h⟩ := Attempt.bind_eq_ok.1 h
  cases h
  obtain ⟨ms, hu, hd, hm⟩ := searches_unpaged ht hns
  exact ⟨ms, forall₂_planOf hu s.window, hd, hm⟩

theorem planText_sound (ht : p.table.Accepted) {value : String} {reported : StringProperties}
    {version operation : Option String} {plan : SearchPlan}
    (h : p.planText s value reported version operation = .ok plan) : p.Sound plan := by
  obtain ⟨ms, os, hc, hos, rfl⟩ := planText_cases h
  obtain ⟨ms', hs, hu⟩ := unpaged_of_mapM hos fun m n => textSearch_isFor
  exact ⟨ms', forall₂_planOf hu s.window, (distinct_candidates ht hc).sublist hs,
    fun m hm => candidates_backed hc m (hs.subset hm)⟩

section Relationships

variable {k : RelationshipMapping} {plan : SearchPlan} {operation : Option String}

theorem foldFor_eq_some {g : Option PropertyGroup} (h : foldFor g k = .ok (some n)) :
    ∃ f, relationshipSearch k f = some n := by
  obtain ⟨f, _, h⟩ := Attempt.bind_eq_ok.1 h
  exact ⟨f.folded, Except.ok.inj h⟩

theorem relationshipTextSearch_eq_some {value : String} {reported : StringProperties}
    (h : relationshipTextSearch value reported k = .ok (some n)) :
    ∃ f, relationshipSearch k f = some n := by
  rw [relationshipTextSearch] at h
  split at h
  · cases h
  · obtain ⟨f, _, h⟩ := Attempt.bind_eq_ok.1 h
    exact ⟨f, Except.ok.inj h⟩

/-- The searches of a plan are those that mappings of a relationship type have, in their order. -/
def Surveys (p : Planner) (type : Option String) (plan : SearchPlan) : Prop :=
  ∃ ks os, p.table.relationshipsFor type = .ok ks ∧
    List.Forall₂ (fun k o => ∀ n, o = some n → ∃ f, relationshipSearch k f = some n) ks os ∧
    plan.searches = os.filterMap id

theorem planRelationships_surveys {q : RelationshipSearch}
    (h : p.planRelationships q operation = .ok plan) : p.Surveys q.type plan := by
  obtain ⟨_, _, h⟩ := Attempt.bind_eq_ok.1 h
  obtain ⟨ks, hks, h⟩ := Attempt.bind_eq_ok.1 h
  obtain ⟨os, hos, h⟩ := Attempt.bind_eq_ok.1 h
  cases h
  refine ⟨ks, os, Attempt.within_eq_ok.1 hks, (Attempt.mapM_eq_ok.1 hos).imp ?_, rfl⟩
  rintro k _ hsearch n rfl
  exact foldFor_eq_some hsearch

theorem planRelationshipText_surveys {type : Option String} {value : String}
    {reported : StringProperties} {w : Window}
    (h : p.planRelationshipText type value reported w operation = .ok plan) :
    p.Surveys type plan := by
  obtain ⟨_, _, h⟩ := Attempt.bind_eq_ok.1 h
  obtain ⟨ks, hks, h⟩ := Attempt.bind_eq_ok.1 h
  obtain ⟨os, hos, h⟩ := Attempt.bind_eq_ok.1 h
  cases h
  refine ⟨ks, os, Attempt.within_eq_ok.1 hks, (Attempt.mapM_eq_ok.1 hos).imp ?_, rfl⟩
  rintro k _ hsearch n rfl
  exact relationshipTextSearch_eq_some hsearch

theorem Surveys.exists_mapping {type : Option String} (h : p.Surveys type plan)
    (hn : n ∈ plan.searches) :
    ∃ k ∈ p.table.relationships, ∃ f, relationshipSearch k f = some n := by
  obtain ⟨ks, os, hks, hos, hplan⟩ := h
  rw [hplan] at hn
  obtain ⟨_, ho, rfl⟩ := List.mem_filterMap.1 hn
  obtain ⟨k, hk, hsearch⟩ := exists_left_of_mem hos ho
  exact ⟨k, ((MappingTable.mem_relationshipsFor hks).1 hk).1, hsearch n rfl⟩

end Relationships

end Planner

end MetaFed
