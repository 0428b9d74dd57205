import MetaFed.Proofs.Plan
import MetaFed.Proofs.Run

/-!
Entities read off hits. Each is made of one hit under the mapping of its search, and a hit makes at
most one.
-/

namespace MetaFed

namespace Entity

variable {home : String} {m : EntityMapping} {r : Record} {e : Entity}

theorem ofRecord?_eq_some : ofRecord? home m r = .ok (some e) ↔ ofRecord home m r = .ok e := by
  rw [ofRecord?]
  split <;> simp_all

theorem type_of_ofRecord (h : ofRecord home m r = .ok e) : e.type = m.abstractType := by
  simp only [ofRecord, Attempt.bind_eq_ok] at h
  obtain ⟨_, _, _, _, _, _, h⟩ := h
  cases h
  rfl

theorem guid_of_ofRecord (h : ofRecord home m r = .ok e) :
    (m.identity home r.ref).guid = .ok e.guid := by
  simp only [ofRecord, Attempt.bind_eq_ok] at h
  obtain ⟨_, _, _, _, guid, hg, h⟩ := h
  cases h
  exact hg

end Entity

structure Origin where
  mapping : EntityMapping
  record : Record

namespace Origin

def Makes (home : String) (o : Origin) (e : Entity) : Prop :=
  Entity.ofRecord home o.mapping o.record = .ok e

/-- Different records, at least where the entity types are the same. -/
def Apart (a b : Origin) : Prop :=
  a.mapping.abstractType = b.mapping.abstractType → a.record.id ≠ b.record.id

end Origin

namespace Scope

variable {c : Scope} {m : EntityMapping} {residual : Option PropertyGroup} {r : Record}
  {rs : List Record} {room : Option Nat} {xs : List Entity}

theorem readEntity_eq_ok (h : c.readEntity m residual r = .ok xs) :
    xs = [] ∨ ∃ e, xs = [e] ∧ Entity.ofRecord c.home m r = .ok e := by
  simp only [readEntity, Attempt.bind_eq_ok] at h
  obtain ⟨o, ho, h⟩ := h
  cases o with
  | none => exact .inl (Except.ok.inj h).symm
  | some e =>
      have he := Entity.ofRecord?_eq_some.1 ho
      cases residual with
      | none => exact .inr ⟨e, (Except.ok.inj h).symm, he⟩
      | some g =>
          simp only [Attempt.bind_eq_ok] at h
          obtain ⟨b, _, h⟩ := h
          cases b with
          | false => exact .inl (Except.ok.inj h).symm
          | true => exact .inr ⟨e, (Except.ok.inj h).symm, he⟩

/-- The entities collected are made of some of the hits, in their order. -/
theorem collect_made (h : collect (c.readEntity m residual) room rs = .ok xs) :
    ∃ rs' : List Record, rs'.Sublist rs ∧
      List.Forall₂ (Origin.Makes c.home) (rs'.map (Origin.mk m)) xs := by
  induction rs generalizing room xs with
  | nil =>
      cases h
      exact ⟨[], List.nil_sublist _, .nil⟩
  | cons r rs ih =>
      simp only [collect, Attempt.bind_eq_ok] at h
      obtain ⟨us, hu, h⟩ := h
      have hone : ∃ us' : List Record, us'.Sublist [r] ∧
          List.Forall₂ (Origin.Makes c.home) (us'.map (Origin.mk m)) us := by
        rcases readEntity_eq_ok hu with rfl | ⟨e, rfl, he⟩
        · exact ⟨[], List.nil_sublist _, .nil⟩
        · exact ⟨[r], .refl _, .cons he .nil⟩
      obtain ⟨us', hsub, hmade⟩ := hone
      split at h
      · cases h
        exact ⟨us', hsub.trans (List.singleton_sublist.2 List.mem_cons_self), hmade⟩
      · simp only [Attempt.bind_eq_ok] at h
        obtain ⟨vs, hv, h⟩ := h
        cases h
        obtain ⟨vs', hsub', hmade'⟩ := ih hv
        refine ⟨us' ++ vs', hsub.append hsub', ?_⟩
        rw [List.map_append]
        exact List.rel_append hmade hmade'

theorem length_collect_le (h : collect (c.readEntity m residual) room rs = .ok xs) :
    xs.length ≤ rs.length := by
  obtain ⟨rs', hsub, hmade⟩ := collect_made h
  rw [← hmade.length_eq, List.length_map]
  exact hsub.length_le

theorem type_of_mem_collect (h : collect (c.readEntity m residual) room rs = .ok xs) :
    ∀ e ∈ xs, e.type = m.abstractType := by
  obtain ⟨rs', _, hmade⟩ := collect_made h
  intro e he
  obtain ⟨o, ho, hm⟩ := exists_left_of_mem hmade he
  obtain ⟨r, _, rfl⟩ := List.mem_map.1 ho
  exact Entity.type_of_ofRecord hm

def entityReader (c : Scope) (n : NativeSearch) : Option (Record → Attempt (List Entity)) :=
  n.mapping.map fun m => c.readEntity m n.residual

theorem entityReader_of_isFor {n : NativeSearch} (h : n.IsFor m) :
    c.entityReader n = some (c.readEntity m n.residual) := by
  rw [entityReader, h.mapping, Option.map_some]

/-- A record is among the hits of one of the searches, which is for the mapping. -/
def IsHit (c : Scope) (ns : List NativeSearch) (o : Origin) : Prop :=
  ∃ n ∈ ns, n.IsFor o.mapping ∧ ∃ hits, c.backend.answer n = .ok hits ∧ o.record ∈ hits

/-- The entities gathered are made of hits; of different ones, where no search has a record twice. -/
theorem gather_made {ms : List EntityMapping} {ns : List NativeSearch}
    (hf : List.Forall₂ (fun m n => NativeSearch.IsFor n m) ms ns)
    (h : c.gather c.entityReader room ns = .ok xs) :
    ∃ os, List.Forall₂ (Origin.Makes c.home) os xs ∧
      (∀ o ∈ os, o.mapping ∈ ms ∧ c.IsHit ns o) ∧
      (Distinct ms →
        (∀ n ∈ ns, ∀ hits, c.backend.answer n = .ok hits → (hits.map Record.id).Nodup) →
        os.Pairwise Origin.Apart) := by
  induction hf generalizing room xs with
  | nil =>
      cases h
      exact ⟨[], .nil, by simp, fun _ _ => .nil⟩
  | @cons m n ms ns hn _ ih =>
      simp only [gather, entityReader_of_isFor hn] at h
      split at h
      · cases h
        exact ⟨[], .nil, by simp, fun _ _ => .nil⟩
      simp only [Attempt.bind_eq_ok] at h
      obtain ⟨hits, ha, us, hu, vs, hv, h⟩ := h
      cases h
      obtain ⟨rs', hsub, hmade⟩ := collect_made hu
      obtain ⟨os, hos, hhit, hapart⟩ := ih hv
      refine ⟨rs'.map (Origin.mk m) ++ os, List.rel_append hmade hos, fun o ho => ?_,
        fun hd hid => List.pairwise_append.2 ⟨?_, ?_, ?_⟩⟩
      · rcases List.mem_append.1 ho with ho | ho
        · obtain ⟨r, hr, rfl⟩ := List.mem_map.1 ho
          exact ⟨List.mem_cons_self, n, List.mem_cons_self, hn, hits, ha, hsub.subset hr⟩
        · obtain ⟨hm, k, hk, hrest⟩ := hhit o ho
          exact ⟨List.mem_cons_of_mem m hm, k, List.mem_cons_of_mem n hk, hrest⟩
      · have hnd := (hsub.map Record.id).nodup (hid n List.mem_cons_self hits ha)
        rw [List.Nodup, List.pairwise_map] at hnd
        refine List.pairwise_map.2 (hnd.imp ?_)
        exact fun hne _ => hne
      · exact hapart hd.tail fun k hk => hid k (List.mem_cons_of_mem n hk)
      -- Different searches are for different entity types.
      · intro a ha b hb e
        obtain ⟨r, _, rfl⟩ := List.mem_map.1 ha
        exact absurd e (List.rel_of_pairwise_cons hd (hhit b hb).1)

def entitiesOf (c : Scope) (ns : List NativeSearch) : Attempt (List Entity) :=
  c.gather c.entityReader none ns

theorem entitiesOf_cons {n : NativeSearch} {ns : List NativeSearch} (hn : n.IsFor m) :
    c.entitiesOf (n :: ns) = .ok xs ↔ ∃ hits ys zs, c.backend.answer n = .ok hits ∧
      collect (c.readEntity m n.residual) none hits = .ok ys ∧ c.entitiesOf ns = .ok zs ∧
      xs = ys ++ zs :=
  gather_none_cons (entityReader_of_isFor hn)

theorem entitiesOf_singleton {n : NativeSearch} (hn : n.IsFor m) :
    c.entitiesOf [n] = .ok xs ↔ ∃ hits, c.backend.answer n = .ok hits ∧
      collect (c.readEntity m n.residual) none hits = .ok xs := by
  rw [entitiesOf_cons hn]
  simp [entitiesOf, gather]

theorem type_of_mem_entitiesOf {ms : List EntityMapping} {ns : List NativeSearch}
    (hf : List.Forall₂ (fun m n => NativeSearch.IsFor n m) ms ns) (h : c.entitiesOf ns = .ok xs) :
    ∀ e ∈ xs, ∃ m ∈ ms, e.type = m.abstractType := by
  obtain ⟨os, hos, hhit, _⟩ := gather_made hf h
  intro e he
  obtain ⟨o, ho, hm⟩ := exists_left_of_mem hos he
  exact ⟨o.mapping, (hhit o ho).1, Entity.type_of_ofRecord hm⟩

end Scope

end MetaFed
