import MetaFed.Proofs.Find

/-!
Walking through the pages of a search. A search is cut to its leading hits by counting hits, while
pages count entities; the two agree just as long as no hit stands further back in its search than
its entity does among the results.
-/

namespace MetaFed

namespace Scope

variable {c : Scope} {m : EntityMapping} {residual : Option PropertyGroup} {rs hits : List Record}
  {xs ys zs : List Entity}

/-- No hit of a search that is cut stands further back among the hits than its entity does among
the results of all searches. -/
def Prompt (c : Scope) (ns : List NativeSearch) : Prop :=
  ∀ (before : List NativeSearch) (n : NativeSearch) (after : List NativeSearch)
    (pre : List Record) (r : Record) (post : List Record) (m : EntityMapping)
    (earlier made : List Entity) (e : Entity),
    ns = before ++ n :: after → n.residual = none → n.mapping = some m →
    c.backend.answer n = .ok (pre ++ r :: post) → c.entitiesOf before = .ok earlier →
    collect (c.readEntity m none) none pre = .ok made → c.readEntity m none r = .ok [e] →
    pre.length ≤ earlier.length + made.length

theorem exists_first_made (h : collect (c.readEntity m residual) none rs = .ok xs) (hx : xs ≠ []) :
    ∃ pre r post e, rs = pre ++ r :: post ∧ collect (c.readEntity m residual) none pre = .ok [] ∧
      c.readEntity m residual r = .ok [e] := by
  induction rs generalizing xs with
  | nil =>
      cases h
      exact absurd rfl hx
  | cons r rs ih =>
      obtain ⟨us, vs, hu, hv, rfl⟩ := collect_none_cons.1 h
      rcases readEntity_eq_ok hu with rfl | ⟨e, rfl, _⟩
      · obtain ⟨pre, r', post, e, rfl, hpre, he⟩ := ih hv (by simpa using hx)
        exact ⟨r :: pre, r', post, e, rfl, collect_none_cons.2 ⟨[], [], hu, hpre, rfl⟩, he⟩
      · exact ⟨[], r, rs, e, rfl, rfl, hu⟩

/-- Cutting the hits of a search loses no entity, or only entities after `count` results. -/
theorem collect_cut {before : Nat} (h : collect (c.readEntity m none) none hits = .ok xs)
    (hp : ∀ pre r post made e, hits = pre ++ r :: post →
      collect (c.readEntity m none) none pre = .ok made → c.readEntity m none r = .ok [e] →
      pre.length ≤ before + made.length) (count : Nat) :
    ∃ ys zs, collect (c.readEntity m none) none (hits.take count) = .ok ys ∧
      collect (c.readEntity m none) none (hits.drop count) = .ok zs ∧ xs = ys ++ zs ∧
      (zs = [] ∨ count ≤ before + ys.length) := by
  rw [← List.take_append_drop count hits] at h
  obtain ⟨ys, zs, hy, hz, rfl⟩ := collect_none_append.1 h
  refine ⟨ys, zs, hy, hz, rfl, ?_⟩
  by_cases hn : zs = []
  · exact .inl hn
  · obtain ⟨pre, r, post, e, hd, hpre, he⟩ := exists_first_made hz hn
    have hcut : hits = (hits.take count ++ pre) ++ r :: post := by
      rw [List.append_assoc, ← hd, List.take_append_drop]
    have hle := hp _ r post (ys ++ []) e hcut (collect_none_append.2 ⟨ys, [], hy, hpre, rfl⟩) he
    have hlt : count < hits.length := by
      have := congrArg List.length hd
      rw [List.length_drop, List.length_append, List.length_cons] at this
      omega
    rw [List.length_append, List.length_take, List.append_nil] at hle
    exact .inr (by omega)

open Planner (Unpaged leading)

variable {ms : List EntityMapping} {n : NativeSearch} {ns : List NativeSearch}

theorem answer_leading (hb : c.backend.Pages) {count : Nat} (hc : count ≠ 0) (h0 : n.start = 0)
    (h1 : n.pageSize = 0) (h : c.backend.answer n = .ok hits) :
    c.backend.answer (leading count n) =
      .ok (if n.residual.isSome then hits else hits.take count) := by
  rw [leading, hb n hits h0 h1 h]
  split
  · rfl
  · rw [page_zero_of_ne hc]

theorem exists_entitiesOf_leading (hb : c.backend.Pages) {count : Nat} (hc : count ≠ 0)
    (hu : Unpaged ms ns) (h : c.entitiesOf ns = .ok xs) :
    ∃ ys, c.entitiesOf (ns.map (leading count)) = .ok ys := by
  induction hu generalizing xs with
  | nil => exact ⟨xs, h⟩
  | @cons m n ms ns hn _ ih =>
      obtain ⟨hfor, h0, h1⟩ := hn
      obtain ⟨hits, us, vs, ha, hu, hv, rfl⟩ := (entitiesOf_cons hfor).1 h
      obtain ⟨ys, hy⟩ := ih hv
      have hans := answer_leading hb hc h0 h1 ha
      obtain ⟨ws, hw⟩ : ∃ ws, collect (c.readEntity m n.residual) none
          (if n.residual.isSome then hits else hits.take count) = .ok ws := by
        split
        · exact ⟨us, hu⟩
        · rw [← List.take_append_drop count hits] at hu
          obtain ⟨ws, _, hw, _, _⟩ := collect_none_append.1 hu
          exact ⟨ws, hw⟩
      exact ⟨ws ++ ys, (entitiesOf_cons (Planner.isFor_leading count hfor)).2
        ⟨_, ws, ys, hans, hw, hy, rfl⟩⟩

/-- Cutting every search to its leading hits does not change the leading results. -/
theorem entitiesOf_leading (hb : c.backend.Pages) (count : Nat) (hc : count ≠ 0)
    (hu : Unpaged ms ns) (done : List NativeSearch) {earlier : List Entity} (hp : c.Prompt (done ++ ns))
    (hd : c.entitiesOf done = .ok earlier) (h : c.entitiesOf ns = .ok xs) :
    ∃ ys, c.entitiesOf (ns.map (leading count)) = .ok ys ∧
      (earlier ++ ys).take count = (earlier ++ xs).take count := by
  -- By induction on the searches that are left; `done` has those before, because promptness
  -- counts the entities from the first search on.
  induction hu generalizing done earlier xs with
  | nil => exact ⟨xs, h, rfl⟩
  | @cons m n ms ns hn _ ih =>
      obtain ⟨hfor, h0, h1⟩ := hn
      obtain ⟨hits, us, vs, ha, hu, hv, rfl⟩ := (entitiesOf_cons hfor).1 h
      have hdn : c.entitiesOf (done ++ [n]) = .ok (earlier ++ us) :=
        gather_none_append.2 ⟨earlier, us, hd, (entitiesOf_cons hfor).2
          ⟨hits, us, [], ha, hu, rfl, (List.append_nil us).symm⟩, rfl⟩
      obtain ⟨ys, hy, htake⟩ := ih (done ++ [n]) (by simpa using hp) hdn hv
      have hfor' := Planner.isFor_leading count hfor
      have hans := answer_leading hb hc h0 h1 ha
      rw [List.append_assoc, List.append_assoc] at htake
      cases hr : n.residual with
      | some g =>
          rw [hr] at hans
          exact ⟨us ++ ys, (entitiesOf_cons hfor').2 ⟨hits, us, ys, hans, hu, hy, rfl⟩, htake⟩
      | none =>
          rw [hr] at hans hu
          obtain ⟨us', zs, hu', _, rfl, hcut⟩ := collect_cut hu
            (fun pre r post made e he hpre hmade =>
              hp done n ns pre r post m earlier made e rfl hr hfor.mapping (he ▸ ha) hd hpre hmade)
            count
          have hread : collect (c.readEntity m (leading count n).residual) none (hits.take count) =
              .ok us' := by
            rw [leading, hr]
            exact hu'
          refine ⟨us' ++ ys, (entitiesOf_cons hfor').2 ⟨_, us', ys, hans, hread, hy, rfl⟩, ?_⟩
          -- The cut search lost nothing, or it fills the leading results by itself.
          rcases hcut with rfl | hle
          · simpa using htake
          · have hfull : count ≤ (earlier ++ us').length := by
              rw [List.length_append]
              exact hle
            rw [← List.append_assoc, List.take_append_of_le_length hfull, List.append_assoc us',
              ← List.append_assoc, List.take_append_of_le_length hfull]

def countType (type : String) (xs : List Entity) : Nat :=
  xs.countP fun e => e.type == type

theorem countType_append (type : String) (xs ys : List Entity) :
    countType type (xs ++ ys) = countType type xs + countType type ys := List.countP_append

theorem countType_eq_zero {type : String} (h : ∀ e ∈ xs, e.type ≠ type) : countType type xs = 0 :=
  List.countP_eq_zero.2 fun e he => by simpa using h e he

theorem countType_eq_length {type : String} (h : ∀ e ∈ xs, e.type = type) :
    countType type xs = xs.length :=
  List.countP_eq_length.2 fun e he => by simpa using h e he

theorem countType_made {pre : List Record} {r : Record} {made : List Entity} {e : Entity}
    (hmade : collect (c.readEntity m none) none pre = .ok made)
    (he : c.readEntity m none r = .ok [e]) :
    countType m.abstractType (made ++ [e]) = made.length + 1 := by
  rw [countType_eq_length, List.length_append, List.length_singleton]
  intro x hx
  rcases List.mem_append.1 hx with hx | hx
  · exact type_of_mem_collect hmade x hx
  · rw [List.mem_singleton.1 hx]
    rcases readEntity_eq_ok he with h | ⟨e', h, hm⟩
    · cases h
    · cases h
      exact Entity.type_of_ofRecord hm

theorem countType_entitiesOf_eq_zero (hf : List.Forall₂ (fun m n => NativeSearch.IsFor n m) ms ns)
    (hm : ∀ k ∈ ms, k.abstractType ≠ m.abstractType) (h : c.entitiesOf ns = .ok xs) :
    countType m.abstractType xs = 0 := by
  refine countType_eq_zero fun e he => ?_
  obtain ⟨k, hk, hek⟩ := type_of_mem_entitiesOf hf h e he
  rw [hek]
  exact hm k hk

/-- A search that is cut within its first hits finds no more than these make. -/
theorem countType_leading_le (hb : c.backend.Pages) {count : Nat} (hc : count ≠ 0)
    {before after : List NativeSearch} {msb msa : List EntityMapping} (hbefore : Unpaged msb before)
    (hafter : Unpaged msa after) (hfor : n.IsFor m) (h0 : n.start = 0) (h1 : n.pageSize = 0)
    (hb' : ∀ k ∈ msb, k.abstractType ≠ m.abstractType)
    (ha' : ∀ k ∈ msa, k.abstractType ≠ m.abstractType) (hr : n.residual = none)
    {pre post : List Record} (ha : c.backend.answer n = .ok (pre ++ post))
    (hle : count ≤ pre.length) {made : List Entity}
    (hmade : collect (c.readEntity m none) none pre = .ok made)
    (h : c.entitiesOf ((before ++ n :: after).map (leading count)) = .ok xs) :
    countType m.abstractType xs ≤ made.length := by
  rw [List.map_append, List.map_cons] at h
  obtain ⟨us, vs, hu, hv, rfl⟩ := gather_none_append.1 h
  obtain ⟨hits, ws, zs, hhits, hw, hz, rfl⟩ :=
    (entitiesOf_cons (Planner.isFor_leading count hfor)).1 hv
  rw [answer_leading hb hc h0 h1 ha, hr, List.take_append_of_le_length hle] at hhits
  obtain rfl : pre.take count = hits := Except.ok.inj hhits
  rw [leading, hr] at hw
  rw [← List.take_append_drop count pre] at hmade
  obtain ⟨ws', zs', hw', _, rfl⟩ := collect_none_append.1 hmade
  obtain rfl : ws = ws' := Except.ok.inj (hw.symm.trans hw')
  rw [countType_append, countType_append,
    countType_entitiesOf_eq_zero (Planner.forall₂_leading count hbefore) hb' hu,
    countType_entitiesOf_eq_zero (Planner.forall₂_leading count hafter) ha' hz,
    countType_eq_length (type_of_mem_collect hw), List.length_append]
  omega

/-- Before the entity of a hit stand those of the earlier searches and of the earlier hits. -/
theorem exists_entitiesOf_eq {before after : List NativeSearch} {pre post : List Record} {r : Record}
    {earlier made : List Entity} {e : Entity} (hfor : n.IsFor m) (hr : n.residual = none)
    (h : c.entitiesOf (before ++ n :: after) = .ok xs) (hearlier : c.entitiesOf before = .ok earlier)
    (ha : c.backend.answer n = .ok (pre ++ r :: post))
    (hmade : collect (c.readEntity m none) none pre = .ok made)
    (he : c.readEntity m none r = .ok [e]) :
    ∃ rest, xs = earlier ++ (made ++ [e]) ++ rest := by
  obtain ⟨earlier', rest, hearlier', hrest, rfl⟩ := gather_none_append.1 h
  obtain rfl : earlier = earlier' := Except.ok.inj (hearlier.symm.trans hearlier')
  obtain ⟨hits, us, later, ha', hus, _, rfl⟩ := (entitiesOf_cons hfor).1 hrest
  obtain rfl : pre ++ r :: post = hits := Except.ok.inj (ha.symm.trans ha')
  rw [hr] at hus
  obtain ⟨made', us', hmade', hus', rfl⟩ := collect_none_append.1 hus
  obtain rfl : made = made' := Except.ok.inj (hmade.symm.trans hmade')
  obtain ⟨es, us, he', _, rfl⟩ := collect_none_cons.1 hus'
  obtain rfl : [e] = es := Except.ok.inj (he.symm.trans he')
  exact ⟨us ++ later, by simp only [List.append_assoc]⟩

theorem take_drop_of_cut {α : Type} {start size : Nat} {ys ps zs : List α} (hl : ys.length ≤ start)
    (hs : ps ++ zs = [] ∨ start ≤ 0 + ys.length)
    (he : zs = [] ∨ start + size ≤ ys.length + ps.length) :
    ps.take size = ((ys ++ (ps ++ zs)).drop start).take size := by
  rcases hs with hn | hs
  · obtain ⟨rfl, rfl⟩ := List.append_eq_nil_iff.1 hn
    rw [List.append_nil, List.append_nil, List.drop_of_length_le hl]
  · obtain rfl : start = ys.length := by omega
    rw [List.drop_left]
    rcases he with rfl | he
    · rw [List.append_nil]
    · rw [List.take_append_of_le_length (by omega)]

/-- A window on the hits of a lone search is the same window on its entities. -/
theorem entitiesOf_page (hb : c.backend.Pages) (hn : n.IsFor m) (h0 : n.start = 0)
    (h1 : n.pageSize = 0) (hr : n.residual = none) (hp : c.Prompt [n])
    (h : c.entitiesOf [n] = .ok xs) (start : Nat) {size : Nat} (hs : size ≠ 0) :
    ∃ ys, c.entitiesOf [{ n with start, pageSize := size }] = .ok ys ∧
      ys.take size = (xs.drop start).take size := by
  obtain ⟨hits, us, vs, ha, hu, hv, rfl⟩ := (entitiesOf_cons hn).1 h
  obtain rfl : vs = [] := (Except.ok.inj hv).symm
  rw [hr] at hu
  have hprompt : ∀ pre r post made e, hits = pre ++ r :: post →
      collect (c.readEntity m none) none pre = .ok made → c.readEntity m none r = .ok [e] →
      pre.length ≤ 0 + made.length := fun pre r post made e he hpre hmade =>
    hp [] n [] pre r post m [] made e rfl hr hn.mapping (he ▸ ha) rfl hpre hmade
  obtain ⟨ys, zs, hy, _, hsplit, hstart⟩ := collect_cut hu hprompt start
  obtain ⟨ws, zs', hw, _, hsplit', hend⟩ := collect_cut hu hprompt (start + size)
  rw [← List.take_append_drop start (hits.take (start + size)), List.take_take,
    Nat.min_eq_left (Nat.le_add_right start size), ← page_eq_drop_take start hs] at hw
  obtain ⟨ys', ps, hy', hps, rfl⟩ := collect_none_append.1 hw
  obtain rfl : ys = ys' := Except.ok.inj (hy.symm.trans hy')
  have hfor : NativeSearch.IsFor { n with start, pageSize := size } m :=
    ⟨hn.types, hn.properties, hn.mapping⟩
  refine ⟨ps ++ [], (entitiesOf_cons hfor).2 ⟨page start size hits, ps, [],
    hb n hits h0 h1 ha start size, by rw [hr]; exact hps, rfl, rfl⟩, ?_⟩
  have hlen : ys.length ≤ start :=
    Nat.le_trans (length_collect_le hy) (List.length_take_le start hits)
  rw [hsplit', List.append_assoc] at hsplit
  obtain rfl : ps ++ zs' = zs := List.append_cancel_left hsplit
  rw [hsplit', List.append_nil, List.append_nil, List.append_assoc]
  exact take_drop_of_cut hlen hstart (by simpa using hend)

end Scope

namespace Collection

open Planner (Unpaged leading)

variable {c : Collection} {s : Service} {q : EntitySearch} {ms : List EntityMapping}
  {ns : List NativeSearch} {found : List Entity}

/-- Pages of a prompt search are those of the entities it finds. -/
theorem windowOf_page (hu : Unpaged ms ns) (hp : (c.scope s).Prompt ns)
    (hf : (c.scope s).entitiesOf ns = .ok found) (w : Window) (hw : w.pageSize ≠ 0) :
    c.windowOf s (Planner.planOf ns w) = .ok ((found.drop w.start).take w.pageSize) := by
  have hb : (c.scope s).backend.Pages := s.pages_bounded c.settings.timeout
  rcases Planner.planOf_cases ns w with hplan | ⟨n, rfl, hr, hplan⟩
  · have hneeded : w.needed = w.start + w.pageSize := by rw [Window.needed, if_neg hw]
    obtain ⟨ys, hy, htake⟩ := Scope.entitiesOf_leading hb (w.start + w.pageSize) (by omega) hu []
      hp rfl hf
    rw [List.nil_append, List.nil_append] at htake
    rw [hplan, Planner.fanOut_eq, hneeded, windowOf_of_entitiesOf hy,
      page_eq_of_take_eq w.start hw htake, page, if_neg hw]
  · cases hu with
    | cons hn hnil =>
        obtain ⟨ys, hy, htake⟩ := Scope.entitiesOf_page hb hn.1 hn.2.1 hn.2.2 hr hp hf w.start hw
        rw [hplan, windowOf_of_entitiesOf hy, page_zero_of_ne hw, htake]

/-- Where leading pages are right, no hit stands further back than its entity. -/
theorem prompt_of_windowOf (hu : Unpaged ms ns) (hd : Distinct ms)
    (hf : (c.scope s).entitiesOf ns = .ok found) (w : Window)
    (hpages : ∀ k, k ≠ 0 →
      c.windowOf s (Planner.planOf ns { w with start := 0, pageSize := k }) = .ok (found.take k)) :
    (c.scope s).Prompt ns := by
  intro before n after pre r post m earlier made e hsplit hr hm ha hearlier hmade he
  by_contra hlt
  subst hsplit
  have hb : (c.scope s).backend.Pages := s.pages_bounded c.settings.timeout
  have hbefore := List.forall₂_take_append ms before (n :: after) hu
  obtain ⟨k, msa, ⟨hfor, h0, h1⟩, hafter, hms⟩ :=
    List.forall₂_cons_right_iff.1 (List.forall₂_drop_append ms before (n :: after) hu)
  obtain rfl : k = m := Option.some.inj (hfor.mapping.symm.trans hm)
  have hd' : Distinct (ms.take before.length ++ k :: msa) := by
    rw [← hms, List.take_append_drop]
    exact hd
  obtain ⟨_, hda, hdb⟩ := List.pairwise_append.1 hd'
  obtain ⟨rest, rfl⟩ := Scope.exists_entitiesOf_eq hfor hr hf hearlier ha hmade he
  -- The page that ends with the entity is one too short.
  have hc : earlier.length + made.length + 1 ≠ 0 := by omega
  obtain ⟨ys, hy⟩ := Scope.exists_entitiesOf_leading hb hc hu hf
  have hpage := hpages _ hc
  rw [Planner.planOf_of_start_eq_zero rfl, windowOf_of_entitiesOf hy, page_zero_of_ne hc] at hpage
  have htake := Except.ok.inj hpage
  have hle := Scope.countType_leading_le hb hc hbefore hafter hfor h0 h1
    (fun j hj e => hdb j hj k List.mem_cons_self e)
    (fun j hj e => List.rel_of_pairwise_cons hda hj e.symm) hr ha (by omega) hmade hy
  have hfront : ys.take (earlier.length + made.length + 1) = earlier ++ (made ++ [e]) := by
    rw [htake]
    exact List.take_left' (by simp; omega)
  have hpart : Scope.countType k.abstractType (ys.take (earlier.length + made.length + 1)) ≤
      Scope.countType k.abstractType ys := (List.take_sublist _ ys).countP_le
  rw [hfront, Scope.countType_append, Scope.countType_made hmade he] at hpart
  omega

/-- Walking through the pages of a search gives each entity it finds once and in order, just as long
as no hit of a search that is cut stands further back than its entity does. -/
theorem pages_iff_prompt (operation : String) (q : EntitySearch) (ht : c.table.Accepted)
    (hf : (c.run operation (c.findEntities s (q.withPage 0 0))).1 = .ok (.value found)) :
    (∀ size, 0 < size → ∀ i,
      (c.run operation (c.findEntities s (q.withPage (i * size) size))).1 =
        .ok (.value ((found.drop (i * size)).take size))) ↔
      ∀ p, c.planner.planEntities (q.withPage 0 0) none = .ok p →
        (c.scope s).Prompt p.searches := by
  obtain ⟨ns, hns, hplan, hall⟩ := entitiesOf_of_findEntities ht (run_eq_value.1 hf)
  obtain ⟨ms, hu, hd, _⟩ := Planner.searches_unpaged (p := c.planner) ht hns
  constructor
  · intro hpages p' hp'
    obtain rfl := Except.ok.inj (hplan.symm.trans hp')
    refine prompt_of_windowOf hu hd hall q.window fun k hk => ?_
    have hpage := hpages k (Nat.pos_of_ne_zero hk) 0
    rw [Nat.zero_mul, List.drop_zero, run_eq_value, findEntities_eq_ok,
      planEntities_withPage hns] at hpage
    obtain ⟨_, hp, hw⟩ := hpage
    cases hp
    exact hw
  · intro hp size hs i
    rw [run_eq_value, findEntities_eq_ok, planEntities_withPage hns]
    exact ⟨_, rfl, windowOf_page hu (hp _ hplan) hall _ (Nat.ne_of_gt hs)⟩

end Collection

namespace Sample

/-- The assets of a page, as an operation answers them. -/
def assetPage (start size : Nat) : Attempt (Outcome (List Entity)) :=
  (collection.run "find_entities"
    (collection.findEntities assetService (assetRequest.withPage start size))).1

theorem guids_assets :
    guidsOf (assetPage 0 0) = some ["e:home-1::host:host-2", "e:home-1::database:database-1"] := by
  decide +kernel

theorem guids_firstAsset : guidsOf (assetPage 0 1) = some ["e:home-1::database:database-1"] := by
  decide +kernel

theorem firstAsset_ne {found : List Entity}
    (h : found.map Entity.guid = ["e:home-1::host:host-2", "e:home-1::database:database-1"]) :
    assetPage 0 1 ≠ .ok (.value (found.take 1)) := by
  intro hp
  have hg := guids_firstAsset
  rw [hp, guidsOf, List.map_take, h] at hg
  exact absurd (Option.some.inj hg) (by decide)

/-- The second host is on no page of one: the first host takes its place among the hits. -/
theorem asset_missing_from_page : collection.table.Accepted ∧
    ∃ found, assetPage 0 0 = .ok (.value found) ∧
      ¬ ∀ size, 0 < size → ∀ i,
        assetPage (i * size) size = .ok (.value ((found.drop (i * size)).take size)) := by
  obtain ⟨found, hf, hg⟩ := exists_of_guidsOf guids_assets
  refine ⟨MappingTable.accepted_standard, found, hf, fun h => ?_⟩
  exact firstAsset_ne hg (h 1 Nat.one_pos 0)

theorem not_prompt_assets :
    ¬ ∀ p, collection.planner.planEntities (assetRequest.withPage 0 0) none = .ok p →
      (collection.scope assetService).Prompt p.searches := by
  obtain ⟨found, hf, hg⟩ := exists_of_guidsOf guids_assets
  intro hp
  have hpages := (Collection.pages_iff_prompt "find_entities" assetRequest
    MappingTable.accepted_standard hf).2 hp
  exact firstAsset_ne hg (hpages 1 Nat.one_pos 0)

end Sample

end MetaFed
