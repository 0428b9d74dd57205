import MetaFed.Proofs.NameStarts

/-!
Approximated conditions on qualified names. Where the number of ancestors varies, or a literal spans
a separator, the condition that is asked for holds for more records than it should, but for all of
those it should hold for.
-/

namespace MetaFed

namespace Text

variable {c : Char} {l n r x : List Char} {ps : List (List Char)}

theorem joined_concat (hne : ps ≠ []) (n : List Char) :
    joined separator (ps ++ [n]) = joined separator ps ++ ':' :: ':' :: n := by
  induction ps with
  | nil => exact absurd rfl hne
  | cons p ps ih =>
      by_cases hps : ps = []
      · rw [hps, List.singleton_append, joined_cons p (List.cons_ne_nil n [])]
        rfl
      · have hps' : ps ++ [n] ≠ [] := by simp
        rw [List.cons_append, joined_cons p hps', joined_cons p hps, ih hps]
        simp

theorem segments_concat (hx : x.getLast? ≠ some ':') (hn : ':' ∉ n) :
    segments (x ++ ':' :: ':' :: n) = ((segments x).1, (segments x).2 ++ [n]) := by
  fun_induction segments x with
  | case1 =>
      rw [List.nil_append, segments, segments_of_not_mem hn]
      rfl
  | case2 r ih =>
      have hr : r.getLast? ≠ some ':' := by
        cases r with
        | nil => simp
        | cons d r => simpa using hx
      rw [List.cons_append, List.cons_append, segments, ih hr]
      rfl
  | case3 c r hcr ih =>
      have hr : r.getLast? ≠ some ':' := by
        cases r with
        | nil => simp
        | cons d r => simpa using hx
      have hhead : c = ':' → (r ++ ':' :: ':' :: n).head? ≠ some ':' := by
        rintro rfl
        cases r with
        | nil => exact absurd rfl hx
        | cons d r =>
            intro e
            exact hcr r rfl (by rw [Option.some.inj e])
      rw [List.cons_append, segments_cons_of_head hhead, ih hr]

theorem getLast?_ne_of_suffix (h : r <:+ x) (hx : x.getLast? ≠ some c) : r.getLast? ≠ some c := by
  obtain ⟨y, rfl⟩ := h
  by_cases hr : r = []
  · simp [hr]
  · rwa [List.getLast?_append_of_ne_nil y hr] at hx

/-- A text with a separator that ends with a whole name has this name as its last piece. -/
theorem getLast?_segments_of_suffix (hx : x.getLast? ≠ some ':') (hn : ':' ∉ n)
    (h : l <:+ x ++ ':' :: ':' :: n) (hl : (segments l).2 ≠ []) :
    (segments l).2.getLast? = some n := by
  have hhead : n.head? ≠ some ':' := fun e => hn (List.mem_of_head? e)
  rcases suffix_append_iff.1 h with h | ⟨r, hr, rfl⟩
  · rcases List.suffix_cons_iff.1 h with rfl | h
    · rw [← List.nil_append (':' :: ':' :: n), segments_concat (by simp) hn, List.getLast?_concat]
    · rcases List.suffix_cons_iff.1 h with rfl | h
      · rw [segments_cons_of_head fun _ => hhead, segments_of_not_mem hn] at hl
        exact absurd rfl hl
      · rw [segments_of_not_mem fun hc => hn (h.subset hc)] at hl
        exact absurd rfl hl
  · rw [segments_concat (getLast?_ne_of_suffix hr hx) hn, List.getLast?_concat]

end Text

/-- A qualified name that is taken apart and has the head of its asset type is taken apart into the
names it was made of. -/
theorem QualifiedName.names_of_parse? {q : QualifiedName} {assetType : String}
    {mark : Option String} {names : List String} (hnames : ∀ n ∈ names, IsName n)
    (hq : parse? (format assetType names mark) false = some q)
    (hhead : q.head = headOf assetType mark) : q.names = names := by
  obtain ⟨head, hparsed⟩ := exists_head_of_parse? hq
  have hcolon : ':' ∉ (headOf assetType mark).toList := by
    rw [← hhead]
    exact colon_not_mem_headOf hparsed
  obtain ⟨_, _, _, _, hs, _, _, _, rfl⟩ := parse?_eq_some_iff.1 hq
  rw [toList_format, Text.segments_joined (colon_not_mem_pieces hcolon hnames)] at hs
  cases hs
  exact Text.map_ofList_toList names

namespace NameFold

open Catalog

variable {cat : Catalog} {m : EntityMapping} {r : Record} {kind : LiteralKind}
  {name literal qn : String}

theorem exact_of_approximate (h : (exact m literal).approximate = true) :
    ∃ q, QualifiedName.parse? literal false = some q ∧ q.head = m.identityHead ∧
      (exact m literal).folded = .node (NameFold.name .eq q.leafName) := by
  rw [exact] at h ⊢
  cases hq : QualifiedName.parse? literal false with
  | none =>
      rw [hq] at h
      cases h
  | some q =>
      rw [hq] at h
      dsimp only at h ⊢
      split at h
      · cases h
      · rename_i hhead
        rw [if_neg hhead]
        refine ⟨q, rfl, not_not.1 hhead, ?_⟩
        split at h
        · rfl
        · split at h
          · cases h
          · cases h

theorem startsWith_of_approximate (h : (startsWith m literal).approximate = true) :
    (startsWith m literal).folded = .const true := by
  rw [startsWith] at h ⊢
  generalize Text.segments literal.toList = split at h ⊢
  obtain ⟨f, ss⟩ := split
  dsimp only at h ⊢
  split at h
  · split at h <;> cases h
  · rename_i hrest
    rw [if_neg hrest]
    split at h
    · cases h
    · rename_i hhead
      rw [if_neg hhead]
      split at h
      · rfl
      · split at h <;> cases h

theorem approximate_endsAlong {m : EntityMapping} (paths : List String) (first : String)
    (rest : List String) : (endsAlong m paths first rest).approximate = false := by
  rw [endsAlong]
  split
  · split <;> rfl
  · rfl

theorem endsWith_of_approximate (h : (endsWith m literal).approximate = true) :
    (Text.segments literal.toList).2 ≠ [] ∧ (endsWith m literal).folded =
      .node (NameFold.name .eq
        (((Text.segments literal.toList).2.map String.ofList).getLastD "")) := by
  rw [endsWith] at h ⊢
  generalize Text.segments literal.toList = split at h ⊢
  obtain ⟨f, ss⟩ := split
  dsimp only at h ⊢
  split at h
  · cases h
  · rename_i hrest
    rw [if_neg hrest]
    refine ⟨fun e => hrest (by rw [e]; rfl), ?_⟩
    split at h
    · rfl
    · split at h
      · cases h
      · rw [approximate_endsAlong] at h
        cases h

theorem contains_of_approximate (h : (contains m literal).approximate = true) :
    (contains m literal).folded = .const true := by
  rw [contains] at h ⊢
  split at h
  · rfl
  · split at h
    · rename_i hsep
      rw [if_pos hsep]
    · split at h
      · cases h
      · split at h <;> cases h

section Kept

variable (hm : m.checked = .ok m) (hr : r.Nameable m name)
  (hlast : m.assetType.toList.getLast? = some ':' → r.contextNames ≠ [])

include hm hr hlast

theorem getLast?_ancestry :
    (Text.joined Text.separator (pieces m r.contextNames)).getLast? ≠ some ':' := by
  rcases List.eq_nil_or_concat r.contextNames with hnil | ⟨ns, n, hns⟩
  · rw [hnil]
    exact EntityMapping.getLast?_identityHead hm fun e => hlast e hnil
  · have hn : QualifiedName.IsName n := hr.names n (by simp [hns])
    have hne : m.identityHead.toList :: ns.map String.toList ≠ [] := List.cons_ne_nil _ _
    have hne' : n.toList ≠ [] := fun e => hn.1 (String.toList_eq_nil_iff.1 e)
    rw [hns, List.concat_eq_append, pieces, List.map_append, List.map_singleton,
      ← List.cons_append, Text.joined_concat hne, List.append_cons, List.append_cons,
      List.getLast?_append_of_ne_nil _ hne']
    exact fun e => hn.2 (List.mem_of_getLast? e)

/-- The last piece of a text that ends a record's qualified name is the record's name. -/
theorem last_of_endsWith (hrest : (Text.segments literal.toList).2 ≠ [])
    (h : literal.toList <:+ Text.joined Text.separator (pieces m (r.contextNames ++ [name]))) :
    ((Text.segments literal.toList).2.map String.ofList).getLastD "" = name := by
  have hne : m.identityHead.toList :: r.contextNames.map String.toList ≠ [] := List.cons_ne_nil _ _
  rw [pieces, List.map_append, List.map_singleton, ← List.cons_append, Text.joined_concat hne] at h
  have hname := (hr.names name (by simp)).2
  have hpiece := Text.getLast?_segments_of_suffix (getLast?_ancestry hm hr hlast) hname h hrest
  rw [List.getLastD_eq_getLast?, List.getLast?_map, hpiece]
  exact String.ofList_toList

end Kept

/-- A condition that only approximates one on qualified names holds for all records that meet the
latter. -/
theorem approximation_keeps (cat : Catalog) (hm : m.checked = .ok m) (hr : r.Nameable m name)
    (hlast : kind = .endsWith → m.assetType.toList.getLast? = some ':' → r.contextNames ≠ [])
    (happrox : (fold m (.literal kind literal)).approximate = true) :
    ∃ qn b, r.qualifiedName none m.mark = some qn ∧
      (fold m (.literal kind literal)).folded.holds (cat.holds r) = .ok b ∧
      (kind.holds literal.toList qn.toList = true → b = true) := by
  have hown : cat.Reaches r Record.nameProperty (some name) := reaches_name hr.value
  have hqn := toList_qualifiedName m (r.contextNames ++ [name])
  refine Exists.intro _ (exists_and_left.2 ⟨hr.qualifiedName, ?_⟩)
  cases kind with
  | exact =>
      obtain ⟨q, hq, hhead, hfolded⟩ := exact_of_approximate happrox
      refine ⟨_, (congrArg (Folded.holds _) hfolded).trans (holds_along hown _), fun h => ?_⟩
      rw [← String.toList_inj.1 (beq_iff_eq.1 h)] at hq
      have hnames := QualifiedName.names_of_parse? hr.names hq hhead
      rw [decide_eq_true_iff, QualifiedName.leafName, hnames, List.getLastD_concat]
  | startsWith =>
      have hfolded := startsWith_of_approximate happrox
      exact ⟨true, congrArg (Folded.holds _) hfolded, fun _ => rfl⟩
  | endsWith =>
      obtain ⟨hrest, hfolded⟩ := endsWith_of_approximate happrox
      refine ⟨_, (congrArg (Folded.holds _) hfolded).trans (holds_along hown _), fun h => ?_⟩
      rw [LiteralKind.holds, List.isSuffixOf_iff_suffix, hqn] at h
      rw [decide_eq_true_iff, last_of_endsWith hm hr (hlast rfl) hrest h]
  | contains =>
      have hfolded := contains_of_approximate happrox
      exact ⟨true, congrArg (Folded.holds _) hfolded, fun _ => rfl⟩

end NameFold

namespace Sample

open MappingTable

theorem nameable_glossaryTerm : glossaryTerm.Nameable Standard.term "Id" where
  ofType := rfl
  value := rfl
  names := by decide

/-- Conditions that the qualified name of the term meets. -/
def termQueries : List (LiteralKind × String) :=
  [(.exact, "TERM::Customer::Id"), (.startsWith, "TERM::Cus"), (.endsWith, "omer::Id"),
    (.endsWith, "::Id"), (.contains, "omer")]

theorem glossaryTerm_kept :
    glossaryTerm.qualifiedName none Standard.term.mark = some "TERM::Customer::Id" ∧
    ∀ q ∈ termQueries, (NameFold.fold Standard.term (.literal q.1 q.2)).approximate = true ∧
      (NameFold.fold Standard.term (.literal q.1 q.2)).folded.holds
        (Catalog.holds {} glossaryTerm) = .ok true := by
  have hqn : glossaryTerm.qualifiedName none Standard.term.mark = some "TERM::Customer::Id" := by
    decide +kernel
  have hgiven : ∀ q ∈ termQueries,
      (NameFold.fold Standard.term (.literal q.1 q.2)).approximate = true ∧
      q.1.holds q.2.toList "TERM::Customer::Id".toList = true := by
    decide +kernel
  refine ⟨hqn, fun q hq => ?_⟩
  obtain ⟨happrox, hmeets⟩ := hgiven q hq
  obtain ⟨qn, b, hname, hb, hkeeps⟩ := NameFold.approximation_keeps {} rfl nameable_glossaryTerm
    (fun _ => by decide) happrox
  cases hqn.symm.trans hname
  exact ⟨happrox, hkeeps hmeets ▸ hb⟩

/-- A mapping whose asset type ends with a colon, of records without ancestors. -/
def colonHost : EntityMapping :=
  { Standard.host with assetType := "host:", contextPaths := none }

def rootHost : Record := { ref := ⟨"host-1", "host:", some "x"⟩ }

/-- Three colons stand before the record's name in its qualified name, and the first two of them
are taken for the separator. -/
theorem colonHost_missed : colonHost.checked = .ok colonHost ∧ rootHost.Nameable colonHost "x" ∧
    rootHost.qualifiedName none colonHost.mark = some "HOST:::x" ∧
    LiteralKind.endsWith.holds ":::x".toList "HOST:::x".toList = true ∧
    (NameFold.fold colonHost (.literal .endsWith ":::x")).approximate = true ∧
    (NameFold.fold colonHost (.literal .endsWith ":::x")).folded.holds (Catalog.holds {} rootHost) =
      .ok false := by
  exact ⟨rfl, ⟨rfl, rfl, by decide⟩, by decide +kernel, by decide, by decide +kernel, rfl⟩

end Sample

end MetaFed
