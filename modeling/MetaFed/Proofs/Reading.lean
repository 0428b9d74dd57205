import MetaFed.Proofs.Agreement
import MetaFed.Proofs.ExactName
import MetaFed.Proofs.Unmapped

/-!
What the federation reads of a property that is copied from the catalog. A condition that the
catalog finds to hold for it may be checked again on the entity: it is upheld there if it is a match
with a text, or if the property has a single value.
-/

namespace MetaFed

namespace PropertyOperator

variable {v : Value} {p l : String} {kind : LiteralKind}

/-- The catalog finds a literal in fewer values than the federation. -/
theorem matchesText_of_native (hp : SearchPattern.classify p = .literal kind l)
    (h : kind.native.holdsFor v (.text l) = .ok true) :
    SearchPattern.matchesText p v.asText = .ok true := by
  have hn : v.isNull = false := by
    cases v with
    | null => cases kind <;> cases h
    | _ => rfl
  rw [matchesText_literal hp hn h]
  cases hs : strayMatch v (.text p) with
  | false => rfl
  | true =>
      cases kind with
      | exact =>
          have hv : ∀ s, v ≠ .text s := by
            rintro s rfl
            cases hs
          rw [LiteralKind.native, NativeOperator.holdsFor, Value.same_text_of_not_text hv] at h
          cases h
      | _ =>
          rw [strayMatch_literal hp (by decide)] at hs
          cases hs

theorem anyM_matchesText_of_native (hp : SearchPattern.classify p = .literal kind l)
    {vs : List Value} (h : (vs.anyM fun v => kind.native.holdsFor v (.text l)) = .ok true) :
    (vs.anyM fun v => SearchPattern.matchesText p v.asText) = .ok true := by
  induction vs with
  | nil => cases h
  | cons v vs ih =>
      rw [List.anyM] at h ⊢
      obtain ⟨b, hb, h⟩ := Attempt.bind_eq_ok.1 h
      obtain ⟨t, ht⟩ : ∃ t, SearchPattern.matchesText p v.asText = .ok t := by
        simp only [SearchPattern.matchesText, hp]
        exact ⟨_, rfl⟩
      rw [ht, Attempt.ok_bind]
      cases t with
      | true => rfl
      | false =>
          cases b with
          | false => exact ih h
          | true => cases ht.symm.trans (matchesText_of_native hp hb)

end PropertyOperator

namespace PropertyCondition

variable {k : PropertyCondition} {backend : String} {r : Record}

/-- Where the catalog finds the condition to hold for the values of a property, so does the
federation for what it reads of the property. -/
def UpheldOn (k : PropertyCondition) (backend : String) (r : Record) : Prop :=
  ∀ n, k.compile backend = .ok n →
    n.operator.holds (Catalog.valuesOf backend r) n.value = .ok true →
      k.operator.holds (r.value backend) k.value = .ok true

theorem upheldOn_of_pattern {p : String} (ho : k.operator = .like) (hv : k.value = .text p) :
    k.UpheldOn backend r := by
  intro n hn h
  have hc : PropertyOperator.Compiles backend k.operator k.value n := PropertyOperator.compiles hn
  rw [ho, hv] at hc ⊢
  cases hc with
  | comparison _ hc => cases hc
  | value hne => exact absurd rfl (hne p)
  | @pattern _ l kind hp =>
      have hsome (v : Value) (hl : ∀ vs, v ≠ .list vs) (hn : v.isNull = false)
          (h : kind.native.holds [v] (.text l) = .ok true) :
          PropertyOperator.matchesPattern v (.text p) = .ok true := by
        rw [← Option.toList_some,
          NativeOperator.holds_toList (fun x hx => by cases hx; exact hn)] at h
        rw [PropertyOperator.matchesPattern_text hl hn]
        exact PropertyOperator.matchesText_of_native hp h
      simp only [NativeCondition.of, Catalog.valuesOf] at h
      rw [PropertyOperator.holds]
      generalize r.value backend = v at h ⊢
      cases v with
      | null => cases kind <;> cases h
      | list vs =>
          cases vs with
          | nil => cases kind <;> cases h
          | cons v vs =>
              refine PropertyOperator.anyM_matchesText_of_native hp ?_
              cases kind <;> exact h
      | _ => exact hsome _ (fun vs h => by cases h) rfl h

/-- Conditions are upheld on a single value, but for a match of null with null. -/
theorem upheldOn_of_single (hl : ∀ vs, r.value backend ≠ .list vs)
    (hs : k.operator.strays (r.value backend) k.value = false) : k.UpheldOn backend r := by
  intro n hn h
  obtain ⟨stored, hnull, hvalues, hvalue⟩ : ∃ stored : Option Value,
      (∀ v ∈ stored, v.isNull = false) ∧
      Catalog.valuesOf backend r = stored.toList ∧ stored.getD .null = r.value backend := by
    rw [Catalog.valuesOf]
    generalize r.value backend = v at hl
    cases v with
    | null => exact ⟨none, by simp, rfl, rfl⟩
    | list vs => exact absurd rfl (hl vs)
    | _ => exact ⟨some _, fun v hv => by cases hv; rfl, rfl, rfl⟩
  rw [hvalues, NativeOperator.holds_toList hnull, hvalue] at h
  rw [PropertyOperator.holds_of_compiles (PropertyOperator.compiles hn) hl h, hs, Bool.xor_false]

end PropertyCondition

namespace Record

variable {r : Record} {mark : Option String} {vs vs' : Assoc String Value}

theorem find?_putSimple_of_ne {k : String} {ps : List SimpleProperty}
    (hk : ∀ p ∈ ps, p.abstract ≠ k)
    (h : r.putSimple ps vs = .ok vs') : Assoc.find? k vs' = Assoc.find? k vs := by
  induction ps generalizing vs with
  | nil =>
      cases h
      rfl
  | cons p ps ih =>
      obtain ⟨hp, hps⟩ := List.forall_mem_cons.1 hk
      simp only [putSimple] at h
      split at h
      · split at h
        · cases h
        · exact ih hps h
      · rw [ih hps h, Assoc.find?_put_of_ne hp]

theorem find?_putSimple {p : SimpleProperty} {ps : List SimpleProperty}
    (hn : (ps.map SimpleProperty.abstract).Nodup) (hp : p ∈ ps)
    (hvs : Assoc.find? p.abstract vs = none) (h : r.putSimple ps vs = .ok vs') :
    (Assoc.find? p.abstract vs').getD .null = r.value p.backend := by
  induction ps generalizing vs with
  | nil => cases hp
  | cons q ps ih =>
      obtain ⟨hq, hn⟩ := List.nodup_cons.1 hn
      have hne (s : SimpleProperty) (hs : s ∈ ps) : s.abstract ≠ q.abstract := fun e =>
        hq (List.mem_map.2 ⟨s, hs, e⟩)
      simp only [putSimple] at h
      rcases List.mem_cons.1 hp with rfl | hp
      · split at h
        · next hnull =>
            split at h
            · cases h
            · rw [find?_putSimple_of_ne hne h, hvs]
              cases hv : r.value p.backend <;> simp_all [Value.isNull]
        · rw [find?_putSimple_of_ne hne h, Assoc.find?_put_self, Option.getD_some]
      · have hvs' (v : Value) : Assoc.find? p.abstract (Assoc.put q.abstract v vs) = none := by
          rw [Assoc.find?_put_of_ne (hne p hp).symm, hvs]
        split at h
        · split at h
          · cases h
          · exact ih hn hp hvs h
        · exact ih hn hp (hvs' _) h

theorem complexValue_of_putComplex {p : ComplexProperty} {ps : List ComplexProperty}
    (hn : (ps.map ComplexProperty.abstract).Nodup) (hp : p ∈ ps)
    (hvs : Assoc.find? p.abstract vs = none) (h : r.putComplex mark ps vs = .ok vs') :
    r.complexValue p mark = .ok ((Assoc.find? p.abstract vs').getD .null) := by
  induction ps generalizing vs with
  | nil => cases hp
  | cons q ps ih =>
      obtain ⟨hq, hn⟩ := List.nodup_cons.1 hn
      have hne (s : ComplexProperty) (hs : s ∈ ps) : s.abstract ≠ q.abstract := fun e =>
        hq (List.mem_map.2 ⟨s, hs, e⟩)
      obtain ⟨v, hv, h⟩ := Attempt.bind_eq_ok.1 h
      rcases List.mem_cons.1 hp with rfl | hp
      · rw [hv]
        split at h
        · next hnull =>
            split at h
            · cases h
            · rw [find?_putComplex_of_ne hne h, hvs]
              cases v <;> simp_all [Value.isNull]
        · rw [find?_putComplex_of_ne hne h, Assoc.find?_put_self, Option.getD_some]
      · have hvs' (v : Value) : Assoc.find? p.abstract (Assoc.put q.abstract v vs) = none := by
          rw [Assoc.find?_put_of_ne (hne p hp).symm, hvs]
        split at h
        · split at h
          · cases h
          · exact ih hn hp hvs h
        · exact ih hn hp (hvs' _) h

end Record

theorem EntityMapping.nodup_abstractProperties {m n : EntityMapping} (h : m.checked = .ok n) :
    n.abstractProperties.Nodup := by
  rw [checked] at h
  split at h
  · cases h
  · rename_i hf
    cases h
    rw [fault?] at hf
    split at hf
    · cases hf
    · cases hf
    · rename_i hrepeated
      exact (firstRepeated?_eq_none.1 hrepeated).1

/-- A property is copied from one property of the catalog, or else it is a constant if anything. -/
structure EntityMapping.Copies (m : EntityMapping) (name : String) : Prop where
  copied : ∀ x, m.simpleFor name = some x → '.' ∉ x.backend.toList
  constant : m.simpleFor name = none → ∀ x, m.complexFor name = some x → x.kind = .literal

namespace Entity

variable {home : String} {m : EntityMapping} {r : Record} {e : Entity} {name : String}

/-- What the federation reads of a property of the entity. -/
def read (e : Entity) (name : String) : Value :=
  (Assoc.find? name e.properties).getD .null

theorem exists_values (h : ofRecord home m r = .ok e) :
    ∃ vs, r.putSimple m.simple [] = .ok vs ∧
      r.putComplex m.mark m.complex vs = .ok e.properties := by
  obtain ⟨ps, hps, h⟩ := Attempt.bind_eq_ok.1 h
  obtain ⟨_, _, h⟩ := Attempt.bind_eq_ok.1 h
  obtain ⟨_, _, h⟩ := Attempt.bind_eq_ok.1 h
  cases h
  exact Attempt.bind_eq_ok.1 hps

theorem read_of_mem_simple (hn : m.abstractProperties.Nodup) {x : SimpleProperty}
    (hx : x ∈ m.simple) (h : ofRecord home m r = .ok e) :
    e.read x.abstract = r.value x.backend := by
  obtain ⟨vs, hvs, hps⟩ := exists_values h
  obtain ⟨hs, _, hapart⟩ := List.nodup_append.1 hn
  rw [read, Record.find?_putComplex_of_ne (fun p hp e => ?_) hps]
  · exact Record.find?_putSimple hs hx rfl hvs
  · exact hapart _ (List.mem_map_of_mem hx) _ (List.mem_map_of_mem hp) e.symm

theorem read_of_simple (hn : m.abstractProperties.Nodup) {x : SimpleProperty}
    (hx : m.simpleFor name = some x) (h : ofRecord home m r = .ok e) :
    e.read name = r.value x.backend := by
  obtain rfl : x.abstract = name := by simpa using List.find?_some hx
  exact read_of_mem_simple hn (List.mem_of_find?_eq_some hx) h

theorem read_of_mem_complex (hn : m.abstractProperties.Nodup) {x : ComplexProperty}
    (hx : x ∈ m.complex) (h : ofRecord home m r = .ok e) :
    r.complexValue x m.mark = .ok (e.read x.abstract) := by
  obtain ⟨vs, hvs, hps⟩ := exists_values h
  obtain ⟨_, hc, hapart⟩ := List.nodup_append.1 hn
  refine Record.complexValue_of_putComplex hc hx ?_ hps
  refine Record.find?_putSimple_of_ne (fun p hp e => ?_) hvs
  exact hapart _ (List.mem_map_of_mem hp) _ (List.mem_map_of_mem hx) e

theorem read_of_literal (hn : m.abstractProperties.Nodup) {x : ComplexProperty}
    (hx : m.complexFor name = some x) (hkind : x.kind = .literal)
    (h : ofRecord home m r = .ok e) : e.read name = x.literal := by
  obtain rfl : x.abstract = name := by simpa using List.find?_some hx
  have hv := read_of_mem_complex hn (List.mem_of_find?_eq_some hx) h
  simp only [Record.complexValue, hkind, Except.ok.injEq] at hv
  exact hv.symm

theorem read_of_none (hs : m.simpleFor name = none) (hx : m.complexFor name = none)
    (h : ofRecord home m r = .ok e) : e.read name = .null := by
  obtain ⟨vs, hvs, hps⟩ := exists_values h
  rw [read,
    Record.find?_putComplex_of_ne (fun p hp => by simpa using List.find?_eq_none.1 hx p hp) hps,
    Record.find?_putSimple_of_ne (fun p hp => by simpa using List.find?_eq_none.1 hs p hp) hvs]
  rfl

end Entity

namespace Planner

variable {p : Planner} {m : EntityMapping} {k : PropertyCondition} {f : Folding} {cat : Catalog}
  {r : Record}

theorem resolver_copied (hc : m.Copies k.property) (h : p.resolver m k true = .ok f) :
    f.approximate = false := by
  simp only [resolver] at h
  cases hs : m.simpleFor k.property with
  | some x =>
      simp only [hs] at h
      obtain ⟨n, _, h⟩ := Attempt.bind_eq_ok.1 h
      cases h
      rfl
  | none =>
      cases hx : m.complexFor k.property with
      | none =>
          simp only [hs, hx] at h
          cases h
          rfl
      | some x =>
          simp only [hs, hx, hc.constant hs x hx] at h
          obtain ⟨b, _, h⟩ := Attempt.bind_eq_ok.1 h
          cases h
          rfl

/-- What the catalog finds of a copied property, the federation finds on the entity. -/
theorem holds_of_copied (hc : m.Copies k.property) (hn : m.abstractProperties.Nodup)
    (h : p.resolver m k true = .ok f) (hf : f.folded.holds (cat.holds r) = .ok true)
    (hu : ∀ x, m.simpleFor k.property = some x → k.UpheldOn x.backend r) {home : String}
    {e : Entity}
    (he : Entity.ofRecord home m (r.project m.projected) = .ok e) :
    k.holds e.properties = .ok true := by
  change k.operator.holds (e.read k.property) k.value = .ok true
  simp only [resolver] at h
  -- The cases of the resolver: what is copied is compared by the catalog, a constant is decided
  -- while planning, and what is not mapped meets `isNull` only.
  cases hs : m.simpleFor k.property with
  | some x =>
      simp only [hs] at h
      obtain ⟨n, hcompile, h⟩ := Attempt.bind_eq_ok.1 h
      cases h
      obtain ⟨hproperty, hnegated⟩ := PropertyCondition.compile_plain hcompile
      have hbackend : x.backend ∈ m.projected := by
        have hmem : x ∈ m.simple := List.mem_of_find?_eq_some hs
        simp only [EntityMapping.projected, mem_firsts, List.cons_append, List.mem_cons,
          List.mem_append]
        exact .inr (.inl (.inl (.inl (List.mem_map_of_mem hmem))))
      rw [Entity.read_of_simple hn hs he, (r.agreesOn_project m.projected).value hbackend]
      refine hu x hs n hcompile ?_
      rw [Folded.holds, Node.holds, Attempt.map_eq_ok] at hf
      obtain ⟨b, hb, hbt⟩ := hf
      obtain rfl : b = true := by simpa [hnegated] using hbt
      rw [Catalog.holds, hproperty, Catalog.valuesAlong_plain (hc.copied x hs)] at hb
      exact hb
  | none =>
      cases hx : m.complexFor k.property with
      | none =>
          simp only [hs, hx] at h
          cases h
          have hnull : k.operator = .isNull := by simpa [Resolver.unmapped, Folded.holds] using hf
          rw [Entity.read_of_none hs hx he, hnull]
          rfl
      | some x =>
          simp only [hs, hx, hc.constant hs x hx] at h
          obtain ⟨b, hb, h⟩ := Attempt.bind_eq_ok.1 h
          cases h
          cases hf
          rw [Entity.read_of_literal hn hx (hc.constant hs x hx) he]
          exact hb

end Planner

namespace MappingTable

/-- No copied property of the standard table is made of a path, and elsewhere it is copied too or
else a constant. -/
theorem copies_standard {name : String}
    (h : ∃ m ∈ backed standard.mappings, (m.simpleFor name).isSome = true) :
    name ≠ qualifiedNameProperty ∧ ∀ m ∈ backed standard.mappings, m.Copies name := by
  have hplain : ∀ m ∈ backed Standard.mappings, ∀ x ∈ m.simple, '.' ∉ x.backend.toList := by
    decide +kernel
  have hapart : ∀ m ∈ backed Standard.mappings, ∀ x ∈ m.complex, x.kind = .literal ∨
      x.abstract ∉
        (backed Standard.mappings).flatMap fun m => m.simple.map SimpleProperty.abstract := by
    decide +kernel
  have hname : qualifiedNameProperty ∉
      (backed Standard.mappings).flatMap fun m => m.simple.map SimpleProperty.abstract := by
    decide +kernel
  obtain ⟨m, hm, hs⟩ := h
  obtain ⟨x, hx⟩ := Option.isSome_iff_exists.1 hs
  have hmem : x.abstract ∈
      (backed Standard.mappings).flatMap fun m => m.simple.map SimpleProperty.abstract :=
    List.mem_flatMap.2 ⟨m, hm, List.mem_map_of_mem (List.mem_of_find?_eq_some hx)⟩
  obtain rfl : x.abstract = name := by simpa using List.find?_some hx
  refine ⟨fun e => hname (e ▸ hmem), fun m' hm' => ⟨fun y hy => ?_, fun _ y hy => ?_⟩⟩
  · exact hplain m' hm' y (List.mem_of_find?_eq_some hy)
  · have hy' : y.abstract = x.abstract := by simpa using List.find?_some hy
    exact (hapart m' hm' y (List.mem_of_find?_eq_some hy)).resolve_right fun h => h (hy' ▸ hmem)

end MappingTable

end MetaFed
