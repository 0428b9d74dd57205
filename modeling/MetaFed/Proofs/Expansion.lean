import MetaFed.Proofs.Folding
import MetaFed.Proofs.Hierarchy
import MetaFed.Proofs.Shortcut

/-!
The mappings a request for entities goes through. Where the expansion of a type ends well it gives
the eligible mappings and no other, and each refusal has its own condition on the names and on the
mappings below the type. A qualified name that leads to mappings leads to eligible ones only.
-/

namespace MetaFed

namespace MappingTable

variable {t : MappingTable} {type : Option String} {within names : List String} {n : String}
  {m : EntityMapping} {ms : List EntityMapping}

/-- A mapping of a type or of one that descends from it. -/
def Under (t : MappingTable) (name : String) (m : EntityMapping) : Prop :=
  m ∈ t.mappings ∧ t.hierarchy.Descends m.abstractType name

/-- What makes a mapping a candidate for a request of some type or of any, and within some types
where there are any. -/
structure Eligible (t : MappingTable) (type : Option String) (within : List String)
    (m : EntityMapping) : Prop where
  mapped : m ∈ t.mappings
  backed : m.isSentinel = false
  searchable : m.searchable = true
  notBase : m.abstractType ≠ t.baseType
  ofType : ∀ name, type = some name → t.hierarchy.Descends m.abstractType name
  inFilter : within ≠ [] → ∃ name ∈ within, t.hierarchy.Descends m.abstractType name

theorem Accepted.has_abstractType (ht : t.Accepted) (hm : m ∈ t.mappings) :
    t.hierarchy.has m.abstractType = true := by
  obtain ⟨before, hf⟩ := exists_mappingFault? ht.mappingsFault?_eq_none hm
  rw [mappingFault?] at hf
  split at hf
  · cases hf
  · rename_i hentity
    obtain ⟨d, hd, _⟩ := (Option.any_eq_true _ _).1 (not_not.1 hentity)
    rw [Hierarchy.has, hd, Option.isSome_some]

theorem Accepted.isTypeOf_iff (ht : t.Accepted) (hm : m ∈ t.mappings) :
    t.hierarchy.isTypeOf m.abstractType n = true ↔ t.hierarchy.Descends m.abstractType n := by
  rw [Hierarchy.isTypeOf_iff_descends ht.hierarchy]
  exact and_iff_right (ht.has_abstractType hm)

theorem mem_subtree_iff (ht : t.Accepted) : m ∈ t.subtree n ↔ t.Under n m := by
  constructor
  · intro hm
    have hmapped := mem_subtree hm
    refine ⟨hmapped, ?_⟩
    rcases List.mem_append.1 hm with hm | hm
    · rw [(forAbstract_eq_some (Option.mem_toList.1 hm)).2]
      exact .refl
    · have hkept : m.abstractType ≠ n ∧ t.hierarchy.isTypeOf m.abstractType n = true := by
        simpa using (List.mem_filter.1 hm).2
      exact (ht.isTypeOf_iff hmapped).1 hkept.2
  · rintro ⟨hm, hd⟩
    by_cases hn : m.abstractType = n
    · subst hn
      exact List.mem_append_left _ (Option.mem_toList.2 (ht.forAbstract_of_mem hm))
    · have htype := (ht.isTypeOf_iff hm).2 hd
      exact List.mem_append_right _ (List.mem_filter.2 ⟨hm, by simp [hn, htype]⟩)

theorem mem_below_iff (ht : t.Accepted) : m ∈ t.below type ↔
    m ∈ t.mappings ∧ ∀ name, type = some name → t.hierarchy.Descends m.abstractType name := by
  cases type with
  | none => simp [below]
  | some name => simpa [below, Under] using mem_subtree_iff ht

theorem isEligible_iff (ht : t.Accepted) (hm : m ∈ t.mappings) :
    t.isEligible m within = true ↔ m.isSentinel = false ∧ m.searchable = true ∧
      m.abstractType ≠ t.baseType ∧
      (within ≠ [] → ∃ name ∈ within, t.hierarchy.Descends m.abstractType name) := by
  have hfilter : (within.any fun n => t.hierarchy.isTypeOf m.abstractType n) = true ↔
      ∃ name ∈ within, t.hierarchy.Descends m.abstractType name := by
    rw [List.any_eq_true]
    exact exists_congr fun name => and_congr_right fun _ => ht.isTypeOf_iff hm
  simp only [isEligible, Bool.and_eq_true, Bool.or_eq_true, hfilter, List.isEmpty_iff,
    Bool.not_eq_true', bne_iff_ne, and_assoc, ne_eq, ← Classical.or_iff_not_imp_left]

theorem eligible_iff (ht : t.Accepted) : t.Eligible type within m ↔
    m ∈ t.below type ∧ t.isEligible m within = true := by
  constructor
  · intro h
    refine ⟨(mem_below_iff ht).2 ⟨h.mapped, h.ofType⟩, (isEligible_iff ht h.mapped).2 ?_⟩
    exact ⟨h.backed, h.searchable, h.notBase, h.inFilter⟩
  · rintro ⟨hm, he⟩
    obtain ⟨hmapped, htype⟩ := (mem_below_iff ht).1 hm
    obtain ⟨hb, hs, hbase, hfilter⟩ := (isEligible_iff ht hmapped).1 he
    exact ⟨hmapped, hb, hs, hbase, htype, hfilter⟩

/-- The candidates of a request: every eligible mapping once, the one of the type itself before
the others, which are in table order. -/
structure Candidates (t : MappingTable) (type : Option String) (within : List String)
    (ms : List EntityMapping) : Prop where
  distinct : Distinct ms
  mem_iff : ∀ m, m ∈ ms ↔ t.Eligible type within m
  ordered : ∃ own rest, ms = own ++ rest ∧ (∀ m ∈ own, type = some m.abstractType) ∧
    (∀ m ∈ rest, type ≠ some m.abstractType) ∧ rest.Sublist t.mappings

/-- The mappings below a type are its own and then the others in table order. -/
theorem below_eq_append (t : MappingTable) (type : Option String) :
    ∃ own rest, t.below type = own ++ rest ∧ (∀ m ∈ own, type = some m.abstractType) ∧
      (∀ m ∈ rest, type ≠ some m.abstractType) ∧ rest.Sublist t.mappings := by
  cases type with
  | none => exact ⟨[], t.mappings, rfl, by simp, by simp, List.Sublist.refl _⟩
  | some name =>
      refine ⟨_, _, rfl, ?_, ?_, List.filter_sublist⟩
      · intro m hm
        rw [(forAbstract_eq_some (Option.mem_toList.1 hm)).2]
      · intro m hm e
        rw [Option.some_inj] at e
        simpa [← e] using (List.mem_filter.1 hm).2

theorem candidates_filter (ht : t.Accepted) (type : Option String) (within : List String) :
    t.Candidates type within ((t.below type).filter fun m => t.isEligible m within) where
  distinct := (distinct_below ht type).sublist List.filter_sublist
  mem_iff _ := List.mem_filter.trans (eligible_iff ht).symm
  ordered := by
    obtain ⟨own, rest, hsplit, hown, hrest, hsub⟩ := below_eq_append t type
    refine ⟨_, _, by rw [hsplit, List.filter_append], ?_, ?_, List.filter_sublist.trans hsub⟩
    · exact fun m hm => hown m (List.mem_filter.1 hm).1
    · exact fun m hm => hrest m (List.mem_filter.1 hm).1

/-- The first of some names that is unknown or deliberately left out. -/
def firstRejected? (t : MappingTable) (names : List String) : Option String :=
  names.find? fun n => !t.hierarchy.has n || t.unsupported.contains n

/-- How names are refused: the first that is rejected says why. -/
theorem checkTypes_eq (t : MappingTable) (names : List String) :
    t.checkTypes names = match t.firstRejected? names with
      | none => .ok ()
      | some n =>
        if t.hierarchy.has n then refuse (.typeNotSupported n "deliberately not implemented")
        else refuse (.unmapped n t.hierarchy.names) := by
  induction names with
  | nil => rfl
  | cons n ns ih =>
      rw [checkTypes, checkType]
      by_cases hn : t.hierarchy.has n = true
      · by_cases hu : n ∈ t.unsupported
        · simp [firstRejected?, hn, hu, refuse]
        · simpa [firstRejected?, hn, hu] using ih
      · simp [firstRejected?, hn, refuse]

theorem checkTypes_append (t : MappingTable) (names more : List String) :
    t.checkTypes (names ++ more) = t.checkTypes names >>= fun _ => t.checkTypes more := by
  induction names with
  | nil => rfl
  | cons n ns ih => simp only [List.cons_append, checkTypes, ih, bind_assoc]

theorem checkTypes_singleton (t : MappingTable) (name : String) :
    t.checkTypes [name] = t.checkType name := by
  rw [checkTypes]
  cases t.checkType name <;> rfl

/-- A request whose type does not lead to records: the first name that is rejected is unknown, or
all mappings below the type are sentinels. -/
def LeadsNowhere (t : MappingTable) (type : Option String) (within : List String)
    (n : String) : Prop :=
  (t.firstRejected? (within ++ type.toList) = some n ∧ t.hierarchy.has n = false) ∨
    (t.firstRejected? (within ++ type.toList) = none ∧ type = some n ∧
      ∀ m, t.Under n m → m.isSentinel = true)

/-- A request whose type is not offered: the first name that is rejected is known but left out, or
no mapping that has records below the type can be searched. -/
def NotOffered (t : MappingTable) (type : Option String) (within : List String)
    (n : String) : Prop :=
  (t.firstRejected? (within ++ type.toList) = some n ∧ t.hierarchy.has n = true ∧
      n ∈ t.unsupported) ∨
    (t.firstRejected? (within ++ type.toList) = none ∧ type = some n ∧
      (∃ m, t.Under n m ∧ m.isSentinel = false) ∧
      ∀ m, t.Under n m → m.isSentinel = false → m.searchable = false)

def Offered (t : MappingTable) (type : Option String) (within : List String) : Prop :=
  t.firstRejected? (within ++ type.toList) = none ∧
    ∀ n, type = some n → ∃ m, t.Under n m ∧ m.isSentinel = false ∧ m.searchable = true

/-- How the expansion of a type ends. -/
inductive Expands (t : MappingTable) (type : Option String) (within : List String) :
    Attempt (List EntityMapping) → Prop
  | nowhere {n : String} (h : t.LeadsNowhere type within n) (similar : List String) :
      Expands t type within (refuse (.typeNotMapped n similar))
  | notOffered {n : String} (h : t.NotOffered type within n) (reason : String) :
      Expands t type within (refuse (.typeNotSupported n reason))
  | found {ms : List EntityMapping} (h : t.Offered type within)
      (hms : t.Candidates type within ms) : Expands t type within (.ok ms)

theorem LeadsNowhere.unique {n' : String} (h : t.LeadsNowhere type within n)
    (h' : t.LeadsNowhere type within n') : n = n' := by
  grind [LeadsNowhere]

theorem NotOffered.unique {n' : String} (h : t.NotOffered type within n)
    (h' : t.NotOffered type within n') : n = n' := by
  grind [NotOffered]

theorem LeadsNowhere.not_notOffered {n' : String} (h : t.LeadsNowhere type within n) :
    ¬ t.NotOffered type within n' := by
  grind [LeadsNowhere, NotOffered]

theorem LeadsNowhere.not_offered (h : t.LeadsNowhere type within n) :
    ¬ t.Offered type within := by
  grind [LeadsNowhere, Offered]

theorem NotOffered.not_offered (h : t.NotOffered type within n) : ¬ t.Offered type within := by
  grind [NotOffered, Offered]

theorem isEmpty_backed_subtree (ht : t.Accepted) : (backed (t.subtree n)).isEmpty = true ↔
    ∀ m, t.Under n m → m.isSentinel = true := by
  rw [List.isEmpty_iff, backed, List.filter_eq_nil_iff]
  simp only [mem_subtree_iff ht, Bool.not_eq_true', Bool.not_eq_false]

theorem any_searchable_subtree (ht : t.Accepted) :
    (backed (t.subtree n)).any EntityMapping.searchable = true ↔
      ∃ m, t.Under n m ∧ m.isSentinel = false ∧ m.searchable = true := by
  simp only [List.any_eq_true, mem_backed, mem_subtree_iff ht, and_assoc]

/-- The names are checked first, those of the filter before the type. -/
theorem expand_eq (t : MappingTable) (type : Option String) (within : List String) :
    t.expand type within = t.checkTypes (within ++ type.toList) >>= fun _ =>
      match type with
      | none => .ok (t.mappings.filter fun m => t.isEligible m within)
      | some name =>
        let found := (t.subtree name).filter fun m => t.isEligible m within
        if (backed (t.subtree name)).isEmpty then refuse (.unmapped name t.abstractTypes)
        else if found.isEmpty ∧ ¬ (backed (t.subtree name)).any EntityMapping.searchable then
          refuse (.typeNotSupported name "no searchable mapping")
        else .ok found := by
  cases type with
  | none => rw [Option.toList_none, List.append_nil]; rfl
  | some name =>
      rw [Option.toList_some, checkTypes_append, checkTypes_singleton, bind_assoc]
      rfl

theorem mem_unsupported_of_firstRejected? (h : t.firstRejected? names = some n)
    (hhas : t.hierarchy.has n = true) : n ∈ t.unsupported := by
  have hn := List.find?_some h
  simpa [hhas] using hn

theorem expands (ht : t.Accepted) (type : Option String) (within : List String) :
    t.Expands type within (t.expand type within) := by
  rw [expand_eq, checkTypes_eq]
  cases hr : t.firstRejected? (within ++ type.toList) with
  | some n =>
      dsimp only
      by_cases hhas : t.hierarchy.has n = true
      · rw [if_pos hhas]
        exact .notOffered (.inl ⟨hr, hhas, mem_unsupported_of_firstRejected? hr hhas⟩) _
      · rw [if_neg hhas]
        exact .nowhere (.inl ⟨hr, Bool.not_eq_true _ ▸ hhas⟩) _
  | none =>
      rw [Attempt.ok_bind]
      have hcandidates := candidates_filter ht type within
      cases type with
      | none => exact .found ⟨hr, fun _ e => nomatch e⟩ hcandidates
      | some name =>
          dsimp only
          by_cases hempty : (backed (t.subtree name)).isEmpty = true
          · rw [if_pos hempty]
            exact .nowhere (.inr ⟨hr, rfl, (isEmpty_backed_subtree ht).1 hempty⟩) _
          rw [if_neg hempty]
          by_cases hsearch : (backed (t.subtree name)).any EntityMapping.searchable = true
          · rw [if_neg fun h => h.2 hsearch]
            refine .found ⟨hr, ?_⟩ hcandidates
            rintro _ ⟨⟩
            exact (any_searchable_subtree ht).1 hsearch
          · -- What is found can be searched, so nothing is.
            have hunsearched : ¬ ∃ m, t.Under name m ∧ m.isSentinel = false ∧
                m.searchable = true := fun h => hsearch ((any_searchable_subtree ht).2 h)
            have hnone : (t.subtree name).filter (fun m => t.isEligible m within) = [] := by
              rw [List.eq_nil_iff_forall_not_mem]
              intro m hm
              have he := (hcandidates.mem_iff m).1 hm
              exact hunsearched ⟨m, ⟨he.mapped, he.ofType name rfl⟩, he.backed, he.searchable⟩
            rw [hnone, if_pos ⟨rfl, hsearch⟩]
            rw [isEmpty_backed_subtree ht] at hempty
            push Not at hempty
            obtain ⟨m, hm, hs⟩ := hempty
            refine .notOffered (.inr ⟨hr, rfl, ⟨m, hm, by simpa using hs⟩, ?_⟩) _
            intro m' hm' hs'
            by_contra hsearched
            exact hunsearched ⟨m', hm', hs', by simpa using hsearched⟩

theorem expand_typeNotMapped (ht : t.Accepted) :
    (∃ similar, t.expand type within = refuse (.typeNotMapped n similar)) ↔
      t.LeadsNowhere type within n := by
  have hexpands := expands ht type within
  generalize t.expand type within = r at hexpands
  constructor
  · rintro ⟨similar, rfl⟩
    generalize hr : (refuse _ : Attempt (List EntityMapping)) = r at hexpands
    cases hexpands with
    | nowhere h => cases hr; exact h
    | notOffered => cases hr
    | found => cases hr
  · intro h
    cases hexpands with
    | nowhere h' similar => exact ⟨similar, h'.unique h ▸ rfl⟩
    | notOffered h' => exact absurd h' h.not_notOffered
    | found h' => exact absurd h' h.not_offered

theorem expand_typeNotSupported (ht : t.Accepted) :
    (∃ reason, t.expand type within = refuse (.typeNotSupported n reason)) ↔
      t.NotOffered type within n := by
  have hexpands := expands ht type within
  generalize t.expand type within = r at hexpands
  constructor
  · rintro ⟨reason, rfl⟩
    generalize hr : (refuse _ : Attempt (List EntityMapping)) = r at hexpands
    cases hexpands with
    | nowhere => cases hr
    | notOffered h => cases hr; exact h
    | found => cases hr
  · intro h
    cases hexpands with
    | nowhere h' => exact absurd h h'.not_notOffered
    | notOffered h' reason => exact ⟨reason, h'.unique h ▸ rfl⟩
    | found h' => exact absurd h' h.not_offered

end MappingTable

namespace Planner

open MappingTable

variable {p : Planner} {s : EntitySearch} {m : EntityMapping} {ms : List EntityMapping}

theorem eligible_of_accepts (ht : p.table.Accepted) (hm : m ∈ p.table.mappings)
    (h : p.accepts s m = true) : p.table.Eligible s.type s.within m := by
  obtain ⟨he, htype⟩ := Bool.and_eq_true_iff.1 h
  refine (eligible_iff ht).2 ⟨(mem_below_iff ht).2 ⟨hm, ?_⟩, he⟩
  intro name hname
  rw [hname] at htype
  exact (ht.isTypeOf_iff hm).1 htype

theorem accepts_of_shortcut (h : p.shortcut? s = .ok (some ms)) :
    ∀ m ∈ ms, p.accepts s m = true := by
  obtain rfl | ⟨kind, literal, ns, _, rfl⟩ := shortcut_cases h
  · exact fun m hm => nomatch hm
  · exact fun m hm => (List.mem_filter.1 hm).2

/-- The expansion of a type gives exactly the eligible mappings, or it refuses one name for a
reason of its own. A mapping that a qualified name leads to is eligible in the same sense. -/
theorem candidates_exactly_eligible (p : Planner) (ht : p.table.Accepted) :
    (∀ type within,
      (∀ ms, p.table.expand type within = .ok ms → p.table.Candidates type within ms) ∧
      (∀ n, (∃ similar, p.table.expand type within = refuse (.typeNotMapped n similar)) ↔
        p.table.LeadsNowhere type within n) ∧
      (∀ n, (∃ reason, p.table.expand type within = refuse (.typeNotSupported n reason)) ↔
        p.table.NotOffered type within n) ∧
      ((∀ n, ¬ p.table.LeadsNowhere type within n ∧ ¬ p.table.NotOffered type within n) →
        ∃ ms, p.table.expand type within = .ok ms)) ∧
    ∀ s ms, p.shortcut? s = .ok (some ms) →
      Distinct ms ∧ ∀ m ∈ ms, p.table.Eligible s.type s.within m := by
  constructor
  · intro type within
    refine ⟨?_, fun n => expand_typeNotMapped ht, fun n => expand_typeNotSupported ht, ?_⟩
    · intro ms hms
      rw [expand_eq_ok hms]
      exact candidates_filter ht type within
    · intro h
      have hexpands := expands ht type within
      generalize p.table.expand type within = r at hexpands
      cases hexpands with
      | nowhere h' => exact absurd h' (h _).1
      | notOffered h' => exact absurd h' (h _).2
      | @found ms => exact ⟨ms, rfl⟩
  · intro s ms hms
    have hsub := shortcut_sublist hms
    refine ⟨(distinct_backed ht).sublist hsub, fun m hm => ?_⟩
    have hm' := (mem_backed.1 (hsub.subset hm)).1
    exact eligible_of_accepts ht hm' (accepts_of_shortcut hms m hm)

end Planner

namespace Sample

/-- Infrastructure and data sets whose qualified names end as that of a schema does. -/
def schemaByName : EntitySearch :=
  { type := some "Asset", within := ["Infrastructure", "DataSet"]
    properties := some (.single (nameEndsWith "DATABASE_SCHEMA::DATABASE::sales")) }

theorem assets_expanded : planner.table.Accepted ∧
    (∃ ms, planner.table.expand (some "Asset") ["Infrastructure", "DataSet"] = .ok ms ∧
      ms.map EntityMapping.abstractType = ["Host", "DeployedDatabaseSchema"] ∧
      planner.table.Candidates (some "Asset") ["Infrastructure", "DataSet"] ms) ∧
    (∃ similar, planner.table.expand (some "Asset") ["DataSet", "Hots"] =
      refuse (.typeNotMapped "Hots" similar)) ∧
    (∃ similar, planner.table.expand (some "Glossary") [] =
      refuse (.typeNotMapped "Glossary" similar)) ∧
    (∃ reason, planner.table.expand (some "Collection") ["Asset"] =
      refuse (.typeNotSupported "Collection" reason)) ∧
    ∃ ms, planner.shortcut? schemaByName = .ok (some ms) ∧
      ms.map EntityMapping.abstractType = ["DeployedDatabaseSchema"] ∧
      ∀ m ∈ ms, planner.table.Eligible (some "Asset") ["Infrastructure", "DataSet"] m := by
  have ht : planner.table.Accepted := MappingTable.accepted_standard
  obtain ⟨hexpand, hshortcut⟩ := Planner.candidates_exactly_eligible planner ht
  refine ⟨ht, ?_, ?_, ?_, ?_, ?_⟩
  · have hfound : (planner.table.expand (some "Asset") ["Infrastructure", "DataSet"]).toOption.map
        (List.map EntityMapping.abstractType) = some ["Host", "DeployedDatabaseSchema"] := by
      decide +kernel
    obtain ⟨ms, hms, hnames⟩ := Attempt.exists_of_toOption hfound
    exact ⟨ms, hms, hnames, (hexpand _ _).1 ms hms⟩
  · exact ((hexpand _ _).2.1 "Hots").2 (.inl ⟨by decide +kernel, by decide +kernel⟩)
  · refine ((hexpand _ _).2.1 "Glossary").2 (.inr ⟨by decide +kernel, rfl, fun m hm => ?_⟩)
    have hnone : planner.table.subtree "Glossary" = [] :=
      List.isEmpty_iff.1 (by decide +kernel)
    have hm' := (MappingTable.mem_subtree_iff ht).2 hm
    rw [hnone] at hm'
    cases hm'
  · exact ((hexpand _ _).2.2.1 "Collection").2
      (.inl ⟨by decide +kernel, by decide +kernel, by decide +kernel⟩)
  · have hfound : (planner.shortcut? schemaByName).toOption.map
        (Option.map (List.map EntityMapping.abstractType)) =
          some (some ["DeployedDatabaseSchema"]) := by decide +kernel
    obtain ⟨o, ho, hnames⟩ := Attempt.exists_of_toOption hfound
    obtain ⟨ms, rfl, hnames⟩ := Option.map_eq_some_iff.1 hnames
    exact ⟨ms, ho, Option.some_inj.1 hnames, (hshortcut schemaByName ms ho).2⟩

end Sample

end MetaFed
