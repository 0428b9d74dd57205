import MetaFed.Proofs.Folding
import MetaFed.Proofs.Hits
import MetaFed.Proofs.Links
import MetaFed.Proofs.NameParts
import MetaFed.Proofs.Shortcut

/-!
Asking for a qualified name. Where the paths of the mappings reach the names of a record's
ancestors, the condition that a qualified name folds to covers the records of this name.
-/

namespace MetaFed

theorem EntityMapping.nodup_complex {m n : EntityMapping} (h : m.checked = .ok n) :
    (n.complex.map ComplexProperty.abstract).Nodup := by
  rw [checked] at h
  split at h
  · cases h
  · rename_i hf
    cases h
    rw [fault?] at hf
    split at hf
    · cases hf
    · cases hf
    · rename_i hrepeated
      exact (List.nodup_append.1 (firstRepeated?_eq_none.1 hrepeated).1).2.1

namespace Record

variable {r : Record} {mark : Option String} {p : ComplexProperty} {ps : List ComplexProperty}
  {vs vs' : Assoc String Value} {name : Option String} {wanted : List String}

theorem find?_putComplex_of_ne {k : String} (hk : ∀ p ∈ ps, p.abstract ≠ k)
    (h : r.putComplex mark ps vs = .ok vs') : Assoc.find? k vs' = Assoc.find? k vs := by
  induction ps generalizing vs with
  | nil =>
      cases h
      rfl
  | cons p ps ih =>
      obtain ⟨hp, hps⟩ := List.forall_mem_cons.1 hk
      obtain ⟨v, _, h⟩ := Attempt.bind_eq_ok.1 h
      split at h
      · split at h
        · cases h
        · exact ih hps h
      · rw [ih hps h, Assoc.find?_put_of_ne hp]

theorem find?_putComplex (hn : (ps.map ComplexProperty.abstract).Nodup) (hp : p ∈ ps)
    (hkind : p.kind = .qualifiedName) (h : r.putComplex mark ps vs = .ok vs') :
    ∃ qn, r.qualifiedName none mark = some qn ∧ Assoc.find? p.abstract vs' = some (.text qn) := by
  induction ps generalizing vs with
  | nil => cases hp
  | cons q ps ih =>
      obtain ⟨hq, hn⟩ := List.nodup_cons.1 hn
      obtain ⟨v, hv, h⟩ := Attempt.bind_eq_ok.1 h
      rcases List.mem_cons.1 hp with rfl | hp
      · simp only [complexValue, hkind, Except.ok.injEq] at hv
        subst hv
        cases hqn : r.qualifiedName none mark with
        | none => simp [hqn, Value.ofText?, Value.isNull, hkind, stop] at h
        | some qn =>
            simp only [hqn, Value.ofText?, Value.isNull, Bool.false_eq_true, if_false] at h
            refine ⟨qn, rfl, ?_⟩
            rw [find?_putComplex_of_ne (fun s hs e => hq (List.mem_map.2 ⟨s, hs, e⟩)) h,
              Assoc.find?_put_self]
      · split at h
        · split at h
          · cases h
          · exact ih hn hp h
        · exact ih hn hp h

theorem qualifiedName_project (h : nameProperty ∈ wanted) (mark : Option String) :
    (r.project wanted).qualifiedName none mark = r.qualifiedName none mark :=
  (r.agreesOn_project wanted).qualifiedName h none

theorem qualifiedName_eq (hname : r.value nameProperty = .ofText? name)
    (hgiven : ∀ n ∈ name, QualifiedName.IsName n) : r.qualifiedName none mark =
      name.map fun n => QualifiedName.format r.type (r.contextNames ++ [n]) mark := by
  cases name with
  | none =>
      rw [qualifiedName, hname]
      rfl
  | some n =>
      have hn : n ≠ "" := (hgiven n rfl).1
      have ht : (Value.text n).isTruthy = true := by simpa [Value.isTruthy] using hn
      rw [qualifiedName, hname]
      simp [Value.ofText?, ht, Value.asText]

end Record

namespace Entity

variable {home : String} {m : EntityMapping} {r : Record} {e : Entity}

theorem exists_qualifiedName (hn : (m.complex.map ComplexProperty.abstract).Nodup)
    (hq : m.hasQualifiedName = true) (h : ofRecord home m r = .ok e) :
    ∃ qn, r.qualifiedName none m.mark = some qn ∧
      Assoc.find? qualifiedNameProperty e.properties = some (.text qn) := by
  rw [EntityMapping.hasQualifiedName, Option.any_eq_true] at hq
  obtain ⟨p, hp, hkind⟩ := hq
  have habstract : p.abstract = qualifiedNameProperty := by simpa using List.find?_some hp
  obtain ⟨ps, hps, h⟩ := Attempt.bind_eq_ok.1 h
  obtain ⟨_, _, h⟩ := Attempt.bind_eq_ok.1 h
  obtain ⟨_, _, h⟩ := Attempt.bind_eq_ok.1 h
  cases h
  obtain ⟨_, _, hput⟩ := Attempt.bind_eq_ok.1 hps
  rw [← habstract]
  exact Record.find?_putComplex hn (List.mem_of_find?_eq_some hp) (of_decide_eq_true hkind) hput

end Entity

namespace Node

variable {native : NativeCondition → Attempt Bool} {ns ns' : List Node} {b b' : Bool}

theorem allHold_append (h : allHold native ns = .ok b) (h' : allHold native ns' = .ok b') :
    allHold native (ns ++ ns') = .ok (b && b') := by
  induction ns generalizing b with
  | nil =>
      cases h
      exact h'
  | cons n ns ih =>
      rw [allHold] at h
      obtain ⟨found, hfound, h⟩ := Attempt.bind_eq_ok.1 h
      rw [List.cons_append, allHold, hfound, Attempt.ok_bind]
      cases found with
      | false =>
          cases h
          rfl
      | true => exact ih h

end Node

namespace Folded

variable {native : NativeCondition → Attempt Bool} {f : Folded}

/-- The members that a folded condition adds to a group hold just if it does. -/
theorem allHold_conjuncts (h : f.isNever = false) :
    Node.allHold native f.conjuncts = f.holds native := by
  match f with
  | .const true => rfl
  | .const false => cases h
  | .node (.leaf c) => exact (holds_single_all _).symm
  | .node (.group ns false false) => exact (Node.holds_all ns).symm
  | .node (.group ns false true) => exact (holds_single_all _).symm
  | .node (.group ns true negated) => exact (holds_single_all _).symm

theorem holds_of_isNever (h : f.isNever = true) : f.holds native = .ok false := by
  cases f with
  | const b =>
      cases b with
      | false => rfl
      | true => cases h
  | node n => cases h

theorem holds_conjunction (ns : List Node) :
    (NameFold.conjunction ns).holds native = Node.allHold native ns := by
  match ns with
  | [] => rfl
  | [n] => exact holds_single_all n
  | n :: n' :: ns => exact Node.holds_all (n :: n' :: ns)

end Folded

/-- No qualified name of the table's own entities is taken for one of another repository. -/
def Planner.SparesOwn (p : Planner) : Prop :=
  ∀ m ∈ MappingTable.backed p.table.mappings, ∀ names ≠ [],
    p.isForeign (QualifiedName.format m.assetType names m.mark) = false

/-- No head of the standard table starts as the standard mark of other repositories does. -/
theorem Planner.sparesOwn_standard (exclusions : Assoc String (List String)) :
    SparesOwn ⟨MappingTable.standard, some standardForeignMark, exclusions⟩ := by
  have hheads : ∀ m ∈ MappingTable.backed MappingTable.Standard.mappings,
      (m.identityHead.toList.head?.any fun c => ('e' == c) == false) = true := by
    decide +kernel
  intro m hm names hne
  obtain ⟨c, hc, hce⟩ := (Option.any_eq_true _ _).1 (hheads m hm)
  obtain ⟨cs, hcs⟩ := List.head?_eq_some_iff.1 hc
  have hmark : standardForeignMark.toList = 'e' :: "xtern:".toList := by decide
  have hhead : (QualifiedName.headOf m.assetType m.mark).toList = c :: cs := hcs
  rw [isForeign, QualifiedName.toList_format, Text.joined_cons _ (by simpa using hne), hhead]
  simp only [hmark, List.cons_append, List.isPrefixOf, beq_iff_eq.1 hce, Bool.false_and,
    Bool.and_false]

namespace Catalog

variable {cat : Catalog} {r : Record} {path : String} {paths : List String}
  {name : Option String} {names : List (Option String)} {values : List String}

/-- A path reaches a name, or else nothing. -/
def Reaches (cat : Catalog) (r : Record) (path : String) (name : Option String) : Prop :=
  cat.valuesAlong r path = .ok (name.toList.map .text)

theorem reaches_name (h : r.value Record.nameProperty = .ofText? name) :
    cat.Reaches r Record.nameProperty name := by
  rw [Reaches, valuesAlong_plain (by decide), valuesOf, h]
  cases name <;> rfl

theorem holds_along (h : cat.Reaches r path name) (value : String) :
    (NameFold.along path .eq value).holds (cat.holds r) = .ok (decide (name = some value)) := by
  rw [NameFold.along, holds_compare_along, h, Attempt.ok_bind, holds_eq_text]
  cases name with
  | none => rfl
  | some n => simp [Value.text_same_text, beq_eq_decide]

/-- Comparisons of names with texts all hold just if these are the names. -/
theorem allHold_equalAlong (h : List.Forall₂ (cat.Reaches r) paths names)
    (hl : values.length = paths.length) :
    Node.allHold (cat.holds r) (NameFold.equalAlong paths values) =
      .ok (decide (names = values.map some)) := by
  induction h generalizing values with
  | nil =>
      obtain rfl := List.length_eq_zero_iff.1 hl
      rfl
  | @cons p n ps ns hp _ ih =>
      obtain ⟨v, vs, rfl⟩ := List.exists_cons_of_length_eq_add_one hl
      have hrest := ih (Nat.succ.inj hl)
      rw [NameFold.equalAlong, List.zip_cons_cons, List.map_cons, Node.allHold, holds_along hp,
        Attempt.ok_bind]
      by_cases hn : n = some v
      · rw [if_pos (decide_eq_true hn), hn]
        exact hrest.trans (by simp)
      · rw [if_neg (by simpa using hn)]
        simp [hn]

/-- Every name in the catalog can stand in a qualified name, and where a mapping has paths to the
names of a record's ancestors, each leads to the name of its ancestor only. -/
structure WellNamed (cat : Catalog) (t : MappingTable) : Prop where
  named : ∀ r ∈ cat.records.values, ∃ name : Option String,
    r.value Record.nameProperty = .ofText? name ∧ ∀ n ∈ name, QualifiedName.IsName n
  ancestors : ∀ r ∈ cat.records.values, ∀ n ∈ r.contextNames, QualifiedName.IsName n
  paths : ∀ m ∈ MappingTable.backed t.mappings, ∀ paths, m.contextPaths = some paths →
    ∀ r ∈ cat.records.values, r.type = m.assetType →
      List.Forall₂ (fun path n => cat.Reaches r path (some n)) paths r.contextNames

end Catalog

theorem NameFold.never_covers {native : NativeCondition → Attempt Bool} {truth : Prop}
    [Decidable truth] (h : ¬truth) : never.Covers native (decide truth) :=
  ⟨false, rfl, by simp [h], by simp [h]⟩

/-- Comparing the ancestors' names and then the record's own is comparing all names in order. -/
theorem NameFold.equalAlong_namePaths {paths names : List String}
    (hl : names.length = paths.length + 1) :
    (paths.zip names).map (fun (p, n) => along p .eq n) ++ [name .eq (names.getLastD "")] =
      equalAlong (namePaths paths) names := by
  induction paths generalizing names with
  | nil =>
      obtain ⟨n, rfl⟩ := List.length_eq_one_iff.1 hl
      rfl
  | cons p ps ih =>
      obtain ⟨n, ns, rfl⟩ := List.exists_cons_of_length_eq_add_one hl
      have hns : ns.getLastD n = ns.getLastD "" := by
        obtain ⟨k, ks, rfl⟩ := List.exists_cons_of_length_eq_add_one (Nat.succ.inj hl)
        rw [List.getLastD_cons, List.getLastD_cons]
      rw [List.getLastD_cons, hns]
      exact congrArg (along p .eq n :: ·) (ih (Nat.succ.inj hl))

section Asked

open QualifiedName

variable {cat : Catalog} {t : MappingTable} {p : Planner} {m : EntityMapping} {r : Record}
  {name : Option String} {paths : List String} {literal : String} {q : QualifiedName}

/-- Comparing all names tells whether the text has just these names. -/
theorem NameFold.comparisons_cover (hlen : q.names.length = paths.length + 1)
    (hreach : List.Forall₂ (cat.Reaches r) (namePaths paths) (r.contextNames.map some ++ [name]))
    {truth : Prop} [Decidable truth]
    (hiff : truth ↔ r.contextNames.map some ++ [name] = q.names.map some) :
    Folding.Covers (cat.holds r)
      ⟨conjunction ((paths.zip q.names).map (fun (p, n) => along p .eq n) ++
        [NameFold.name .eq q.leafName]), false⟩ (decide truth) := by
  have hlen' : q.names.length = (namePaths paths).length := by simpa [namePaths] using hlen
  have hall := Catalog.allHold_equalAlong hreach hlen'
  rw [leafName, equalAlong_namePaths hlen]
  exact ⟨_, (Folded.holds_conjunction _).trans hall, by simp [hiff], by simp [hiff]⟩

theorem NameFold.exact_covers (hr : t.Readable) (hw : cat.WellNamed t)
    (hm : m ∈ MappingTable.backed t.mappings) (hl : '\n' ∉ literal.toList)
    (hmem : r ∈ cat.records.values) (htype : r.type = m.assetType)
    (hvalue : r.value Record.nameProperty = .ofText? name) (hname : ∀ n ∈ name, IsName n) :
    (exact m literal).Covers (cat.holds r) (decide
      ((name.map fun n => format m.assetType (r.contextNames ++ [n]) m.mark) = some literal)) := by
  have hhead : parseHead? (headOf m.assetType m.mark) = some (m.assetType, m.mark) := hr.heads m hm
  have hparts (h) : ∃ n, name = some n ∧
      parse? literal false = some ⟨m.assetType, r.contextNames ++ [n], m.mark, false⟩ :=
    parse?_of_named hhead (hw.ancestors r hmem) hname h
  rw [exact]
  cases hq : parse? literal false with
  | none =>
      refine never_covers fun h => ?_
      obtain ⟨n, _, hn⟩ := hparts h
      cases hq.symm.trans hn
  | some q =>
      have hq' (h) : ∃ n, name = some n ∧ q = ⟨m.assetType, r.contextNames ++ [n], m.mark, false⟩ :=
        (hparts h).imp fun n hn => ⟨hn.1, Option.some.inj (hq.symm.trans hn.2)⟩
      by_cases hqh : q.head = m.identityHead
      · have hiff := named_eq_some_iff hhead (hw.ancestors r hmem) hname hl hq hqh
        simp only [hqh, ne_eq, not_true_eq_false, if_false]
        cases hpaths : m.contextPaths with
        | none =>
            -- Only the record's own name is compared.
            have hown : cat.Reaches r Record.nameProperty name := Catalog.reaches_name hvalue
            refine ⟨_, Catalog.holds_along hown q.leafName, fun h => ?_, by simp⟩
            obtain ⟨n, rfl, rfl⟩ := hq' (of_decide_eq_true h)
            simp [leafName]
        | some paths =>
            have hreach : List.Forall₂ (cat.Reaches r) (namePaths paths)
                (r.contextNames.map some ++ [name]) :=
              List.rel_append
                (List.forall₂_map_right_iff.2 (hw.paths m hm paths hpaths r hmem htype))
                (.cons (Catalog.reaches_name hvalue) .nil)
            by_cases hlen : q.names.length = paths.length + 1
            · simp only [hlen, not_true_eq_false, if_false]
              exact comparisons_cover hlen hreach hiff
            · -- Records of the mapping have as many ancestors as there are paths.
              simp only [hlen, not_false_eq_true, if_true]
              refine never_covers fun h => hlen ?_
              have hsame := hreach.length_eq
              rw [hiff.1 h, List.length_map] at hsame
              simpa [namePaths] using hsame.symm
      · -- Entities of the mapping have another head.
        simp only [hqh, ne_eq, not_false_eq_true, if_true]
        refine never_covers fun h => hqh ?_
        obtain ⟨n, _, rfl⟩ := hq' h
        rfl

/-- The condition that a qualified name folds to covers the records of this name. -/
theorem Planner.nameFolding_covers (hr : p.table.Readable) (hs : p.SparesOwn)
    (hw : cat.WellNamed p.table) (hm : m ∈ MappingTable.backed p.table.mappings)
    (hl : '\n' ∉ literal.toList) (hmem : r ∈ cat.records.values) (htype : r.type = m.assetType) :
    (p.nameFolding .exact literal m).Covers (cat.holds r)
      (decide (r.qualifiedName none m.mark = some literal)) := by
  obtain ⟨name, hvalue, hname⟩ := hw.named r hmem
  rw [Record.qualifiedName_eq hvalue hname, htype, nameFolding]
  split
  · rename_i hforeign
    refine NameFold.never_covers fun h => ?_
    obtain ⟨n, rfl, rfl⟩ := Option.map_eq_some_iff.1 h
    rw [hs m hm _ (by simp)] at hforeign
    cases hforeign
  · exact NameFold.exact_covers hr hw hm hl hmem htype hvalue hname

end Asked

end MetaFed
