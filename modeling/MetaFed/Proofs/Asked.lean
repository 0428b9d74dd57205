import MetaFed.Proofs.Consistent
import MetaFed.Proofs.Document

/-!
Every property that is read off a record was asked for when the record was fetched or searched
for. The exception is the property without a name: it stands in for a property that a mapping does
not tell, and is read but never asked for.
-/

namespace MetaFed

namespace RelationshipMapping

variable {k : RelationshipMapping} {p : String}

/-- Properties that the links of a record at an end are read from, or the records that stand for
them. -/
def readsAt (k : RelationshipMapping) (e : End) : List String :=
  match k.kind with
  | .self => []
  | .level => [(k.atEnd e).link.getD ""]
  | .reference => k.reads (some e)

/-- Both ends tell the property that lists the records standing for relationships. -/
def LinksGiven (k : RelationshipMapping) : Prop :=
  k.kind = .level → ∀ e, isGiven (k.atEnd e).link = true

theorem mem_levelProperties_of_reads (hv : k.fault? = none) (hp : p ∈ k.reads none) :
    p ∈ k.levelProperties := by
  cases hkind : k.kind with
  | self =>
      simp only [reads, hkind] at hp
      cases hp
  | level =>
      obtain ⟨_, hone, htwo⟩ := given_of_level hv hkind
      simp only [reads, hkind] at hp
      rcases List.mem_append.1 hp with hp | hp
      · rcases List.mem_cons.1 hp with rfl | hp
        · exact mem_levelProperties_of_given hone (.inl rfl)
        · exact List.mem_singleton.1 hp ▸ mem_levelProperties_of_given htwo (.inr rfl)
      · exact List.mem_append_right _ hp
  | reference =>
      simp only [reads, hkind] at hp
      rcases List.mem_cons.1 hp with rfl | hp
      · exact mem_levelProperties_of_given (given_of_reference hv hkind) (.inl rfl)
      · obtain ⟨hg, rfl⟩ := mem_readsTwo hp
        exact mem_levelProperties_of_given hg (.inr rfl)

/-- At an end, the property that its records are followed through is read, and no other. -/
theorem eq_leading_of_readsAt (hv : k.fault? = none) {e : End} (hp : p ∈ k.readsAt e) :
    p = (k.leading e).getD "" ∧ (k.kind ≠ .level → isGiven (k.leading e) = true) := by
  cases hkind : k.kind with
  | self =>
      simp only [readsAt, hkind] at hp
      cases hp
  | level =>
      simp only [readsAt, hkind] at hp
      rw [leading_of_level hkind]
      exact ⟨List.mem_singleton.1 hp, fun h => absurd rfl h⟩
  | reference =>
      simp only [readsAt, reads, hkind] at hp
      rw [leading_of_reference hkind]
      cases e with
      | one => exact ⟨List.mem_singleton.1 hp, fun _ => given_of_reference hv hkind⟩
      | two =>
          obtain ⟨hg, rfl⟩ := mem_readsTwo hp
          exact ⟨rfl, fun _ => hg⟩

end RelationshipMapping

namespace EntityMapping

variable {m : EntityMapping} {k : RelationshipMapping} {e : End} {p : String}

theorem mem_projected_of_readsAt (hm : m.mark ≠ some "") (hv : k.fault? = none)
    (hk : k ∈ m.relationships) (hplay : (k.atEnd e).isPlayedBy m.assetType m.mark = true)
    (hl : k.LinksGiven ∨ p ≠ "") (hp : p ∈ k.readsAt e) : p ∈ m.projected := by
  obtain ⟨rfl, hgiven⟩ := RelationshipMapping.eq_leading_of_readsAt hv hp
  refine mem_projected hm hk hplay ?_
  by_cases hkind : k.kind = .level
  · rw [RelationshipMapping.leading_of_level hkind] at hl ⊢
    rcases hl with hl | hne
    · exact hl hkind e
    · cases hlink : (k.atEnd e).link with
      | none =>
          rw [hlink] at hne
          exact absurd rfl hne
      | some n =>
          rw [hlink] at hne
          simpa [isGiven] using hne
  · exact hgiven hkind

end EntityMapping

namespace MappingTable

variable {t : MappingTable} {shared : String → Prop}

/-- Every mapping of a kind whose records list those standing for relationships tells where. -/
def LinksGiven (t : MappingTable) : Prop :=
  ∀ k ∈ t.relationships, k.LinksGiven

/-- The mappings ask for every property that they read, but for those that are shared anyway. -/
structure Asks (t : MappingTable) (shared : String → Prop) : Prop where
  entity : ∀ m ∈ backed t.mappings, ∀ p ∈ m.reads, p ∈ m.projected ∨ shared p
  part : ∀ m ∈ backed t.mappings, ∀ k ∈ m.relationships, ∀ e,
    (k.atEnd e).isPlayedBy m.assetType m.mark = true →
      ∀ p ∈ k.readsAt e, p ∈ m.projected ∨ shared p
  level : ∀ k ∈ t.relationships, ∀ p ∈ k.reads none, p ∈ k.levelProperties ∨ shared p

/-- An accepted table without faulty relationships asks for everything but the property without a
name, and that too if every property is told where it is needed. -/
theorem Accepted.asks (ht : t.Accepted) (hv : ∀ k ∈ t.relationships, k.fault? = none)
    (hgiven : t.NamesGiven ∧ t.LinksGiven ∨ shared "") : t.Asks shared where
  entity := by
    intro m hm p hp
    rcases hgiven with ⟨hn, _⟩ | hs
    · exact .inl (EntityMapping.mem_projected_of_reads hp (.inl (hn m hm)))
    · by_cases hne : p = ""
      · exact .inr (hne ▸ hs)
      · exact .inl (EntityMapping.mem_projected_of_reads hp (.inr hne))
  part := by
    intro m hm k hk e hplay p hp
    have hmark := ht.mark_ne (mem_backed.1 hm).1
    have hmem := mem_relationships hm hk
    rcases hgiven with ⟨_, hl⟩ | hs
    · exact .inl (EntityMapping.mem_projected_of_readsAt hmark (hv k hmem) hk hplay
        (.inl (hl k hmem)) hp)
    · by_cases hne : p = ""
      · exact .inr (hne ▸ hs)
      · exact .inl (EntityMapping.mem_projected_of_readsAt hmark (hv k hmem) hk hplay (.inr hne) hp)
  level := fun k hk _ hp => .inl (RelationshipMapping.mem_levelProperties_of_reads (hv k hk) hp)

theorem asks_of_shared (h : ∀ p, shared p) : t.Asks shared :=
  ⟨fun _ _ p _ => .inr (h p), fun _ _ _ _ _ _ p _ => .inr (h p), fun _ _ p _ => .inr (h p)⟩

theorem linksGiven_standard : standard.LinksGiven := by
  intro k hk hkind e
  have hgiven : isGiven (k.leading e) = true :=
    linked_standard.followed k hk (by rw [hkind]; decide) e
  rwa [RelationshipMapping.leading_of_level hkind] at hgiven

end MappingTable

end MetaFed
