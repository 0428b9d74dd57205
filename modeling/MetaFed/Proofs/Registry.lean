import MetaFed.Mapping.Registry
import MetaFed.Proofs.Firsts
import MetaFed.Proofs.Table

/-!
Look-up tables filled one mapping after another say what the list of mappings says, and are
refused for the same reasons. What makes them acceptable does not depend on the order of the list,
nor do the look-ups with at most one answer.
-/

namespace MetaFed

namespace Assoc

variable {α β : Type} [DecidableEq α] {k k' : α} {v : β}

theorem find?_put (m : Assoc α β) :
    find? k' (put k v m) = if k = k' then some v else find? k' m := by
  by_cases h : k = k'
  · rw [if_pos h, ← h, find?_put_self]
  · rw [if_neg h, find?_put_of_ne h]

theorem getD_find?_push (m : Assoc α (List β)) :
    (find? k' (push k v m)).getD [] =
      (find? k' m).getD [] ++ if k = k' then [v] else [] := by
  rw [push, find?_put]
  by_cases h : k = k'
  · simp [h]
  · simp [h]

end Assoc

namespace MappingTable

open EntityMapping

variable {h : Hierarchy} {before ms ms' : List EntityMapping} {m n : EntityMapping}
  {baseType assetType : String} {mark : Option String} {k : RelationshipMapping}

theorem backed_concat (hm : m.isSentinel = false) : backed (ms ++ [m]) = backed ms ++ [m] := by
  rw [backed, List.filter_append, backed]
  simp [hm]

theorem backed_concat_of_sentinel (hm : m.isSentinel = true) : backed (ms ++ [m]) = backed ms := by
  rw [backed, List.filter_append, backed]
  simp [hm]

theorem owner?_concat (hm : m.isSentinel = false) : owner? (ms ++ [m]) assetType mark =
    (owner? ms assetType mark).or
      (if (m.assetType, m.mark) = (assetType, mark) then some m else none) := by
  rw [owner?, backed_concat hm, List.find?_append, owner?, List.find?_singleton]
  simp only [Prod.mk.injEq, Bool.and_eq_true, beq_iff_eq]

theorem mem_relationshipsOf :
    k ∈ relationshipsOf ms ↔ ∃ m ∈ ms, m.isSentinel = false ∧ k ∈ m.relationships := by
  rw [relationshipsOf, mem_firsts, List.mem_flatMap]
  exact exists_congr fun m => by rw [mem_backed, and_assoc]

theorem owner?_isSome : (owner? ms assetType mark).isSome = true ↔
    ∃ m ∈ ms, m.isSentinel = false ∧ m.assetType = assetType ∧ m.mark = mark := by
  rw [owner?, List.find?_isSome]
  refine exists_congr fun m => ?_
  rw [mem_backed, and_assoc, Bool.and_eq_true, beq_iff_eq, beq_iff_eq]

/-- The types a mapping names are in the hierarchy. -/
structure Known (h : Hierarchy) (m : EntityMapping) : Prop where
  entity : (h.find? m.abstractType).any (fun t => t.category = .entity) = true
  classifications : ∀ c ∈ m.classifications, h.has c.name = true
  relationships : ∀ k ∈ m.relationships, h.has k.type = true

theorem known_iff : Known h m ↔
    (h.find? m.abstractType).any (fun t => t.category = .entity) = true ∧
      m.classifications.find? (fun c => !h.has c.name) = none ∧
      m.relationships.find? (fun r => !h.has r.type) = none := by
  rw [List.find?_eq_none, List.find?_eq_none]
  simp only [Bool.not_eq_true, Bool.not_eq_false']
  exact ⟨fun hk => ⟨hk.1, hk.2, hk.3⟩, fun ⟨he, hc, hk⟩ => ⟨he, hc, hk⟩⟩

theorem apart_before_iff : (∀ n ∈ before, n.Apart m) ↔
    (before.any fun n => n.abstractType == m.abstractType) = false ∧
      (m.isSentinel = false → owner? before m.assetType m.mark = none) := by
  rw [List.any_eq_false, ← Option.not_isSome_iff_eq_none, owner?_isSome]
  constructor
  · intro hapart
    refine ⟨fun n hn e => (hapart n hn).1 (beq_iff_eq.1 e), ?_⟩
    rintro hm ⟨n, hn, hs, howns⟩
    exact (hapart n hn).2 hs hm howns
  · rintro ⟨htype, howner⟩ n hn
    exact ⟨fun e => htype n hn (beq_iff_eq.2 e), fun hs hm howns => howner hm ⟨n, hn, hs, howns⟩⟩

theorem mappingFault?_eq_none :
    mappingFault? h before m = none ↔ Known h m ∧ ∀ n ∈ before, n.Apart m := by
  rw [known_iff, apart_before_iff, mappingFault?]
  split
  · rename_i hentity
    simp [Bool.eq_false_iff.2 hentity]
  split
  · rename_i htype
    simp only [htype, reduceCtorEq, Bool.true_eq_false, false_and, and_false]
  split
  · rename_i hc
    simp [hc]
  · rename_i hr
    simp [hr]
  · split
    · simp_all
    · simp_all

theorem mappingsFault?_eq_none : mappingsFault? h before ms = none ↔
    (∀ m ∈ ms, Known h m) ∧ (∀ n ∈ before, ∀ m ∈ ms, n.Apart m) ∧ ms.Pairwise Apart := by
  induction ms generalizing before with
  | nil => simp [mappingsFault?]
  | cons m ms ih =>
      have hstep : mappingsFault? h before (m :: ms) = none ↔
          mappingFault? h before m = none ∧ mappingsFault? h (before ++ [m]) ms = none := by
        rw [mappingsFault?]
        cases mappingFault? h before m with
        | none => simp
        | some f => simp
      rw [hstep, mappingFault?_eq_none, ih, List.pairwise_cons]
      simp only [List.forall_mem_cons, List.mem_append, List.mem_singleton, or_imp, forall_and,
        forall_eq]
      tauto

/-- Mappings of known types that do not get in each other's way, with owners for the ends of all
relationships. Nothing of it depends on the order of the mappings. -/
structure Sound (h : Hierarchy) (ms : List EntityMapping) (baseType : String) : Prop where
  known : ∀ m ∈ ms, Known h m
  apart : ms.Pairwise Apart
  base : h.has baseType = true
  ends : ∀ m ∈ ms, m.isSentinel = false → ∀ k ∈ m.relationships, ∀ e : End, ∃ n ∈ ms,
    n.isSentinel = false ∧ n.assetType = (k.atEnd e).assetType ∧ n.mark = (k.atEnd e).mark

theorem Sound.perm (hs : Sound h ms baseType) (hp : ms.Perm ms') : Sound h ms' baseType where
  known m hm := hs.known m (hp.symm.subset hm)
  apart := hp.pairwise hs.apart fun ha => symm ha
  base := hs.base
  ends m hm hb k hk e := by
    obtain ⟨n, hn, howns⟩ := hs.ends m (hp.symm.subset hm) hb k hk e
    exact ⟨n, hp.subset hn, howns⟩

theorem endFault?_eq_none {e : EndMapping} : endFault? ms k e = none ↔
    ∃ m ∈ ms, m.isSentinel = false ∧ m.assetType = e.assetType ∧ m.mark = e.mark := by
  rw [endFault?, ← owner?_isSome]
  cases (owner? ms e.assetType e.mark).isSome with
  | false => simp
  | true => simp

theorem endFaults_eq_none : (endFault? ms k k.one <|> endFault? ms k k.two) = none ↔
    ∀ e : End, ∃ m ∈ ms,
      m.isSentinel = false ∧ m.assetType = (k.atEnd e).assetType ∧ m.mark = (k.atEnd e).mark := by
  rw [Option.orElse_eq_orElse, Option.orElse_eq_or, Option.or_eq_none_iff, endFault?_eq_none,
    endFault?_eq_none]
  constructor
  · rintro ⟨hone, htwo⟩ e
    cases e with
    | one => exact hone
    | two => exact htwo
  · exact fun hends => ⟨hends .one, hends .two⟩

/-- Exactly the sound lists of mappings are accepted. -/
theorem fault?_eq_none : fault? h ms baseType = none ↔ Sound h ms baseType := by
  have hsplit : fault? h ms baseType = none ↔ mappingsFault? h [] ms = none ∧
      h.has baseType = true ∧ ∀ k ∈ relationshipsOf ms,
        (endFault? ms k k.one <|> endFault? ms k k.two) = none := by
    rw [fault?, ← List.findSome?_eq_none_iff]
    cases mappingsFault? h [] ms with
    | some f => simp
    | none =>
        by_cases hbase : h.has baseType = true
        · simp [hbase]
        · simp [hbase]
  rw [hsplit, mappingsFault?_eq_none]
  simp only [endFaults_eq_none, mem_relationshipsOf]
  constructor
  · rintro ⟨⟨hknown, _, hapart⟩, hbase, hends⟩
    exact ⟨hknown, hapart, hbase, fun m hm hs k hk => hends k ⟨m, hm, hs, hk⟩⟩
  · rintro ⟨hknown, hapart, hbase, hends⟩
    refine ⟨⟨hknown, by simp, hapart⟩, hbase, ?_⟩
    rintro k ⟨m, hm, hs, hk⟩
    exact hends m hm hs k hk

end MappingTable

namespace Registry

open MappingTable EntityMapping

variable {h : Hierarchy} {g g' : Registry} {before ms ms' : List EntityMapping} {m : EntityMapping}
  {baseType : String}

/-- The tables hold what a scan of these mappings finds. -/
structure Tabulates (g : Registry) (ms : List EntityMapping) : Prop where
  abstract : ∀ n, Assoc.find? n g.byAbstract = ms.find? fun m => m.abstractType == n
  identity : ∀ a p, Assoc.find? (a, p) g.byIdentity = owner? ms a p
  asset : ∀ a, g.forAsset a = (backed ms).filter fun m => m.assetType == a
  mark : ∀ p, g.forMark p = (backed ms).filter fun m => m.mark == some p
  relationships : g.relationships = relationshipsOf ms

namespace Tabulates

theorem empty : Tabulates {} [] where
  abstract _ := rfl
  identity _ _ := rfl
  asset _ := rfl
  mark _ := rfl
  relationships := rfl

theorem find?_enterType (hg : g.Tabulates ms) (hm : ∀ n ∈ ms, n.Apart m) (n : String) :
    Assoc.find? n (g.enterType m).byAbstract = (ms ++ [m]).find? fun m => m.abstractType == n := by
  rw [enterType, Assoc.find?_put, hg.abstract, List.find?_append]
  split
  · rename_i hn
    have hnone : (ms.find? fun m => m.abstractType == n) = none := by
      rw [List.find?_eq_none]
      intro l hl e
      exact (hm l hl).1 ((beq_iff_eq.1 e).trans hn.symm)
    simp [hnone, hn]
  · rename_i hn
    simp [hn]

/-- A sentinel is entered under its entity type only. -/
theorem enterType_sentinel (hg : g.Tabulates ms) (hm : ∀ n ∈ ms, n.Apart m) (hs : m.isSentinel = true) :
    (g.enterType m).Tabulates (ms ++ [m]) where
  abstract := hg.find?_enterType hm
  identity a p := by
    rw [owner?, backed_concat_of_sentinel hs]
    exact hg.identity a p
  asset a := by
    rw [backed_concat_of_sentinel hs]
    exact hg.asset a
  mark p := by
    rw [backed_concat_of_sentinel hs]
    exact hg.mark p
  relationships := by
    rw [relationshipsOf, backed_concat_of_sentinel hs]
    exact hg.relationships

theorem enterOwned_enterType (hg : g.Tabulates ms) (hm : ∀ n ∈ ms, n.Apart m) (hs : m.isSentinel = false) :
    ((g.enterType m).enterOwned m).Tabulates (ms ++ [m]) where
  abstract := hg.find?_enterType hm
  identity a p := by
    change Assoc.find? (a, p) (Assoc.put (m.assetType, m.mark) m g.byIdentity) = _
    rw [Assoc.find?_put, owner?_concat hs, hg.identity]
    split
    · rename_i hk
      obtain ⟨rfl, rfl⟩ := Prod.mk.inj hk
      -- No mapping before this one owns the identity, so writing it overrides nothing.
      rw [(apart_before_iff.1 hm).2 hs, Option.none_or]
    · rw [Option.or_none]
  asset a := by
    change (Assoc.find? a (Assoc.push m.assetType m g.byAsset)).getD [] = _
    rw [Assoc.getD_find?_push, backed_concat hs, List.filter_append, ← hg.asset,
      List.filter_singleton, Bool.cond_eq_ite]
    simp only [beq_iff_eq]
    rfl
  mark p := by
    rw [backed_concat hs, List.filter_append, ← hg.mark, List.filter_singleton, Bool.cond_eq_ite,
      forMark, forMark, enterOwned]
    cases m.mark with
    | none => simp [enterType]
    | some q =>
        simp only [Assoc.getD_find?_push, beq_iff_eq, Option.some.injEq]
        rfl
  relationships := by
    rw [relationshipsOf, backed_concat hs, List.flatMap_append, firsts, List.foldl_append]
    change List.foldl _ g.relationships _ = _
    rw [hg.relationships]
    simp only [List.flatMap_singleton]
    rfl

/-- A round of the loop finds the faults that the check against the mappings before it finds. -/
theorem enter_eq (hg : g.Tabulates before) (h : Hierarchy) (m : EntityMapping) :
    g.enter h m = match mappingFault? h before m with
      | some f => .error f
      | none => .ok (if m.isSentinel then g.enterType m else (g.enterType m).enterOwned m) := by
  have hhas : Assoc.has m.abstractType g.byAbstract =
      before.any fun n => n.abstractType == m.abstractType := by
    rw [Assoc.has, hg.abstract, List.isSome_find?]
  rw [enter, typeFault?, mappingFault?, hhas, hg.identity]
  by_cases hentity : ¬(h.find? m.abstractType).any (fun t => t.category = .entity) = true
  · rw [if_pos hentity, if_pos hentity]
  rw [if_neg hentity, if_neg hentity]
  by_cases htype : (before.any fun n => n.abstractType == m.abstractType) = true
  · rw [if_pos htype, if_pos htype]
  rw [if_neg htype, if_neg htype]
  cases m.classifications.find? (fun c => !h.has c.name) with
  | some c => rfl
  | none =>
      cases m.relationships.find? (fun r => !h.has r.type) with
      | some r => rfl
      | none =>
          cases m.isSentinel with
          | true => rfl
          | false =>
              cases owner? before m.assetType m.mark with
              | some n => rfl
              | none => rfl

theorem enter_ok (hg : g.Tabulates before) (he : g.enter h m = .ok g') :
    g'.Tabulates (before ++ [m]) := by
  rw [hg.enter_eq] at he
  cases hf : mappingFault? h before m with
  | some f =>
      rw [hf] at he
      cases he
  | none =>
      rw [hf] at he
      cases he
      have hapart := (mappingFault?_eq_none.1 hf).2
      cases hs : m.isSentinel with
      | true => exact hg.enterType_sentinel hapart hs
      | false => exact hg.enterOwned_enterType hapart hs

/-- The loop ends with the first fault, or with tables of all the mappings. -/
theorem enterAll_eq (hg : g.Tabulates before) (h : Hierarchy) (ms : List EntityMapping) :
    match mappingsFault? h before ms with
    | some f => enterAll h g ms = .error f
    | none => ∃ g', enterAll h g ms = .ok g' ∧ g'.Tabulates (before ++ ms) := by
  induction ms generalizing g before with
  | nil => exact ⟨g, rfl, by rwa [List.append_nil]⟩
  | cons m ms ih =>
      have hround := hg.enter_eq h m
      rw [mappingsFault?, enterAll]
      cases hf : mappingFault? h before m with
      | some f =>
          rw [hf] at hround
          rw [hround]
      | none =>
          rw [hf] at hround
          have hnext := ih (hg.enter_ok hround)
          rw [hround]
          rwa [List.append_assoc] at hnext

theorem endFault?_eq (hg : g.Tabulates ms) (k : RelationshipMapping) (e : EndMapping) :
    g.endFault? k e = MappingTable.endFault? ms k e := by
  rw [Registry.endFault?, Assoc.has, hg.identity, MappingTable.endFault?]

theorem fault?_eq (hg : g.Tabulates ms) (hf : mappingsFault? h [] ms = none) (baseType : String) :
    g.fault? h baseType = MappingTable.fault? h ms baseType := by
  rw [Registry.fault?, MappingTable.fault?, hf, hg.relationships]
  simp only [hg.endFault?_eq]

end Tabulates

/-- The tables are built or refused as the list of mappings is, and then hold what it says. -/
theorem build_eq (h : Hierarchy) (ms : List EntityMapping) (baseType : String) :
    match MappingTable.fault? h ms baseType with
    | some f => build h ms baseType = refuse (.configuration f)
    | none => ∃ g, build h ms baseType = .ok g ∧ g.Tabulates ms := by
  have hloop := Tabulates.empty.enterAll_eq h ms
  rw [build]
  cases hf : mappingsFault? h [] ms with
  | some f =>
      rw [hf] at hloop
      rw [MappingTable.fault?, hf, hloop]
  | none =>
      rw [hf] at hloop
      obtain ⟨g, hfilled, hg⟩ := hloop
      rw [List.nil_append] at hg
      rw [hfilled]
      simp only [hg.fault?_eq hf]
      cases MappingTable.fault? h ms baseType with
      | some f => rfl
      | none => exact ⟨g, rfl, hg⟩

theorem build_eq_ok (hb : build h ms baseType = .ok g) :
    Sound h ms baseType ∧ g.Tabulates ms := by
  have heq := build_eq h ms baseType
  cases hf : MappingTable.fault? h ms baseType with
  | some f =>
      rw [hf, hb] at heq
      cases heq
  | none =>
      rw [hf, hb] at heq
      obtain ⟨_, hg', htab⟩ := heq
      cases hg'
      exact ⟨fault?_eq_none.1 hf, htab⟩

theorem exists_build (hs : Sound h ms baseType) : ∃ g, build h ms baseType = .ok g := by
  have heq := build_eq h ms baseType
  rw [fault?_eq_none.2 hs] at heq
  obtain ⟨g, hb, _⟩ := heq
  exact ⟨g, hb⟩

/-- The tables answer as the accepted list that all else looks into. -/
theorem lookUps_eq {t : MappingTable} (ht : t.Accepted) :
    ∃ g, build t.hierarchy t.mappings t.baseType = .ok g ∧
      (∀ n, g.forAbstract n = t.forAbstract n) ∧ (∀ a p, g.forIdentity a p = t.forIdentity a p) ∧
      (∀ a, g.forAsset a = t.forAsset a) ∧ (∀ p, g.forMark p = t.forMark p) ∧
      g.relationships = t.relationships := by
  obtain ⟨g, hb⟩ := exists_build (MappingTable.fault?_eq_none.1 ht.fault?_eq_none)
  have hg := (build_eq_ok hb).2
  exact ⟨g, hb, hg.abstract, fun a p => hg.identity a _, hg.asset, hg.mark, hg.relationships⟩

/-- What tables have to say about the mappings they were filled with. -/
structure Agrees (g : Registry) (ms : List EntityMapping) : Prop where
  abstract : ∀ n m, g.forAbstract n = some m ↔ m ∈ ms ∧ m.abstractType = n
  identity : ∀ a p m, g.forIdentity a p = some m ↔
    m ∈ ms ∧ m.isSentinel = false ∧ m.assetType = a ∧ m.mark = p.filter (· ≠ "")
  asset : ∀ a, g.forAsset a = ms.filter fun m => !m.isSentinel && m.assetType == a
  mark : ∀ p, g.forMark p = ms.filter fun m => !m.isSentinel && m.mark == some p
  listed : ∀ k, k ∈ g.relationships ↔ ∃ m ∈ ms, m.isSentinel = false ∧ k ∈ m.relationships
  once : g.relationships.Nodup
  ordered : g.relationships.Pairwise fun k l =>
    ((backed ms).flatMap EntityMapping.relationships).idxOf k <
      ((backed ms).flatMap EntityMapping.relationships).idxOf l
  owned : ∀ k ∈ g.relationships, ∀ e : End,
    ∃ m, g.forIdentity (k.atEnd e).assetType (k.atEnd e).mark = some m ∧
      m.assetType = (k.atEnd e).assetType ∧ m.mark = (k.atEnd e).mark

theorem agrees_of_tabulates (hc : ∀ m ∈ ms, m.checked = .ok m) (hs : Sound h ms baseType)
    (hg : g.Tabulates ms) : g.Agrees ms := by
  have hidentity : ∀ a p m, g.forIdentity a p = some m ↔
      m ∈ ms ∧ m.isSentinel = false ∧ m.assetType = a ∧ m.mark = p.filter (· ≠ "") := by
    intro a p m
    rw [forIdentity, hg.identity, owner?_eq_some hs.apart]
  have hlisted : ∀ k, k ∈ g.relationships ↔
      ∃ m ∈ ms, m.isSentinel = false ∧ k ∈ m.relationships := by
    intro k
    rw [hg.relationships, mem_relationshipsOf]
  refine ⟨?named, hidentity, ?typed, ?marked, hlisted, ?once, ?ordered, ?owned⟩
  case named =>
    intro n m
    rw [forAbstract, hg.abstract, find?_abstract_eq_some hs.apart]
  case typed =>
    intro a
    rw [hg.asset, backed, List.filter_filter]
    exact List.filter_congr fun m _ => Bool.and_comm _ _
  case marked =>
    intro p
    rw [hg.mark, backed, List.filter_filter]
    exact List.filter_congr fun m _ => Bool.and_comm _ _
  case once =>
    rw [hg.relationships]
    exact nodup_firsts _
  case ordered =>
    rw [hg.relationships]
    exact pairwise_idxOf_firsts _
  case owned =>
    intro k hk e
    obtain ⟨m, hm, hms, hkm⟩ := (hlisted k).1 hk
    obtain ⟨n, hn, hns, hasset, hmark⟩ := hs.ends m hm hms k hkm e
    refine ⟨n, (hidentity _ _ n).2 ⟨hn, hns, hasset, ?_⟩, hasset, hmark⟩
    -- No mapping has an empty prefix, so an end with an owner has none either.
    rw [← hmark, filter_mark (mark_ne_of_checked (hc n hn))]

/-- Accepted tables answer as a scan of their mappings does. The same mappings in another order are
accepted too, and then the entity types and the owners found are the same. -/
theorem agrees_of_build (h : Hierarchy) (ms : List EntityMapping) (baseType : String) (g : Registry)
    (hc : ∀ m ∈ ms, m.checked = .ok m) (hb : build h ms baseType = .ok g) :
    g.Agrees ms ∧ ∀ ms', ms.Perm ms' → ∃ g', build h ms' baseType = .ok g' ∧ g'.Agrees ms' ∧
      (∀ n, g'.forAbstract n = g.forAbstract n) ∧ ∀ a p, g'.forIdentity a p = g.forIdentity a p := by
  obtain ⟨hs, hg⟩ := build_eq_ok hb
  have hagrees := agrees_of_tabulates hc hs hg
  refine ⟨hagrees, fun ms' hp => ?_⟩
  obtain ⟨g', hb'⟩ := exists_build (hs.perm hp)
  have hagrees' := agrees_of_tabulates (fun m hm => hc m (hp.symm.subset hm))
    (hs.perm hp) (build_eq_ok hb').2
  refine ⟨g', hb', hagrees', fun n => Option.ext fun m => ?_, fun a p => Option.ext fun m => ?_⟩
  · rw [hagrees'.abstract, hagrees.abstract, hp.mem_iff]
  · rw [hagrees'.identity, hagrees.identity, hp.mem_iff]

end Registry

namespace Sample

open MappingTable

/-- The mappings of the built-in table, last one first. -/
def reversed : List EntityMapping := standard.mappings.reverse

theorem registry_of_reversed : ∃ g g', Registry.build Hierarchy.standard standard.mappings
      standard.baseType = .ok g ∧
    Registry.build Hierarchy.standard reversed standard.baseType = .ok g' ∧
    g.Agrees standard.mappings ∧ g'.Agrees reversed ∧
      ∀ n, g'.forAbstract n = g.forAbstract n := by
  have hs : Sound Hierarchy.standard standard.mappings standard.baseType :=
    fault?_eq_none.1 accepted_standard.fault?_eq_none
  obtain ⟨g, hb⟩ := Registry.exists_build hs
  obtain ⟨hagrees, hperm⟩ := Registry.agrees_of_build _ _ _ g accepted_standard.checked hb
  obtain ⟨g', hb', hagrees', hname, _⟩ := hperm reversed (List.reverse_perm _).symm
  exact ⟨g, g', hb, hb', hagrees, hagrees', hname⟩

end Sample

end MetaFed
