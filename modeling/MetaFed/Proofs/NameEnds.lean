import MetaFed.Proofs.NameStarts
import Mathlib.Data.List.SplitBy

/-!
Ends of qualified names. A literal is aligned with the names of a record and of its ancestors from
the right: the first of its pieces is compared with the end of a name, or of the head, and the
others with whole names. If its colons stand in pairs, the result is exact.
-/

namespace MetaFed

namespace Text

variable {l p : List Char} {ps ss : List (List Char)}

theorem exists_last_whole (hlen : ps.length = ss.length) :
    (∃ front q, p :: ps = front ++ q :: ss ∧ l <:+ q) ↔ l <:+ p ∧ ps = ss := by
  constructor
  · rintro ⟨front, q, heq, h⟩
    have hfront : front = [] := by
      have hl := congrArg List.length heq
      simp only [List.length_cons, List.length_append] at hl
      exact List.length_eq_zero_iff.1 (by omega)
    rw [hfront] at heq
    cases heq
    exact ⟨h, rfl⟩
  · rintro ⟨h, rfl⟩
    exact ⟨[], p, rfl, h⟩

theorem exists_last_part {n : Nat} (hlen : ps.length = ss.length + (n + 1)) :
    (∃ front q, p :: ps = front ++ q :: ss ∧ l <:+ q) ↔
      (∃ q, ps[n]? = some q ∧ l <:+ q) ∧ ps.drop (n + 1) = ss := by
  constructor
  · rintro ⟨front, q, heq, h⟩
    cases front with
    | nil =>
        cases heq
        omega
    | cons x front =>
        rw [List.cons_append] at heq
        obtain ⟨rfl, rfl⟩ := List.cons.inj heq
        have hfront : front.length = n := by
          simp only [List.length_append, List.length_cons] at hlen
          omega
        refine ⟨⟨q, ?_, h⟩, ?_⟩
        · simp [← hfront]
        · simp [← hfront]
  · rintro ⟨⟨q, hq, h⟩, rfl⟩
    refine ⟨p :: ps.take n, q, ?_, h⟩
    obtain ⟨hn, rfl⟩ := List.getElem?_eq_some_iff.1 hq
    simp

end Text

namespace Catalog

variable {cat : Catalog} {r : Record} {paths names : List String}

theorem reaches_own (h : cat.ReachesAll r (NameFold.namePaths paths) names) :
    ∃ ns n, names = ns ++ [n] ∧ cat.Reaches r Record.nameProperty (some n) := by
  induction paths generalizing names with
  | nil =>
      cases h with
      | cons hown hrest =>
          cases hrest
          exact ⟨[], _, rfl, hown⟩
  | cons p ps ih =>
      cases h with
      | cons _ hrest =>
          obtain ⟨ns, n, rfl, hown⟩ := ih hrest
          exact ⟨_ :: ns, n, rfl, hown⟩

theorem eq_map_ofList_iff {ss : List (List Char)} :
    names = ss.map String.ofList ↔ names.map String.toList = ss := by
  constructor
  · rintro rfl
    exact Text.map_toList_ofList ss
  · rintro rfl
    exact (Text.map_ofList_toList names).symm

theorem allHold_equalAlong_pieces (h : cat.ReachesAll r paths names) (ss : List (List Char))
    (hl : ss.length = paths.length) :
    Node.allHold (cat.holds r) (NameFold.equalAlong paths (ss.map String.ofList)) =
      .ok (names.map String.toList == ss) := by
  rw [allHold_equalAlong (List.forall₂_map_right_iff.2 h) (by simpa using hl)]
  refine congrArg Except.ok (Bool.eq_iff_iff.2 ?_)
  rw [decide_eq_true_iff, beq_iff_eq, List.map_inj_right fun _ _ => Option.some.inj,
    eq_map_ofList_iff]

end Catalog

namespace NameFold

open Catalog

variable {cat : Catalog} {m : EntityMapping} {r : Record} {paths names : List String}
  {name literal : String}

/-- Comparing the names from the right compares the pieces of a text with the last pieces of the
qualified name. -/
theorem endsAlong_tells {t : List Char} {ss : List (List Char)} {truth : Bool}
    (hreach : cat.ReachesAll r paths names) (hlen : ss.length ≤ names.length)
    (htruth : truth = true ↔ ∃ front q, pieces m names = front ++ q :: ss ∧ t <:+ q) :
    (endsAlong m paths (String.ofList t) (ss.map String.ofList)).Tells (cat.holds r) truth := by
  have hlength := hreach.length_eq
  have hdropped := List.forall₂_drop (paths.length - ss.length) hreach
  have htail := allHold_equalAlong_pieces hdropped ss (by rw [List.length_drop]; omega)
  simp only [endsAlong, List.length_map, String.toList_ofList]
  cases hk : paths.length - ss.length with
  | zero =>
      -- The first piece is compared with the head.
      rw [hk, List.drop_zero, List.drop_zero] at htail
      have hboth : truth = (t.isSuffixOf m.identityHead.toList &&
          names.map String.toList == ss) := by
        refine Bool.eq_iff_iff.2 (htruth.trans ?_)
        rw [pieces, Text.exists_last_whole (by simp; omega), Bool.and_eq_true, beq_iff_eq,
          List.isSuffixOf_iff_suffix]
      rw [hboth, List.drop_zero]
      cases t.isSuffixOf m.identityHead.toList with
      | true => exact conjunction_tells htail
      | false => exact never_tells
  | succ n =>
      rw [hk] at htail
      have hn : n < paths.length := by omega
      have hn' : n < names.length := by omega
      have hnil : LiteralKind.endsWith.holds [] names[n].toList = true :=
        List.isSuffixOf_iff_suffix.2 List.nil_suffix
      have hstart := allHold_part (hreach.get hn hn') .endsWith hnil t
      have hmore : (names.map String.toList).length = ss.length + (n + 1) := by
        rw [List.length_map]
        omega
      have hboth : truth = (t.isSuffixOf names[n].toList &&
          (names.drop (n + 1)).map String.toList == ss) := by
        refine Bool.eq_iff_iff.2 (htruth.trans ?_)
        rw [pieces, Text.exists_last_part hmore, Bool.and_eq_true, beq_iff_eq,
          List.isSuffixOf_iff_suffix]
        simp [hn', List.map_drop]
      rw [hboth]
      dsimp only
      rw [List.getElem?_eq_getElem hn, Option.toList_some, List.map_singleton]
      exact conjunction_tells (Node.allHold_append hstart htail)

section Exact

variable (hhead : ':' ∉ m.identityHead.toList) (hpaths : m.contextPaths = some paths)
  (hreach : cat.ReachesAll r (namePaths paths) names)
  (hnames : ∀ n ∈ names, QualifiedName.IsName n)

include hhead hpaths hreach hnames

theorem endsWith_tells (literal : String) :
    (endsWith m literal).Tells (cat.holds r)
      (LiteralKind.endsWith.holds literal.toList (Text.joined Text.separator (pieces m names)) &&
        !LiteralKind.endsWith.cutsSeparator literal.toList) := by
  have hlength : names.length = paths.length + 1 := by
    simpa [namePaths] using hreach.length_eq.symm
  have hsplit := Text.joined_segments literal.toList
  have htruth : (LiteralKind.endsWith.holds literal.toList
        (Text.joined Text.separator (pieces m names)) &&
      !LiteralKind.endsWith.cutsSeparator literal.toList) = true ↔
        ∃ front q, pieces m names = front ++ q :: (Text.segments literal.toList).2 ∧
          (Text.segments literal.toList).1 <:+ q := by
    refine Iff.trans ?_ (Text.suffix_joined_iff hhead (pieces_given hnames))
    rw [LiteralKind.holds, LiteralKind.cutsSeparator, Bool.and_eq_true,
      List.isSuffixOf_iff_suffix, Bool.not_eq_true', pieces]
  generalize (LiteralKind.endsWith.holds _ _ && _) = truth at htruth ⊢
  rw [endsWith]
  generalize Text.segments literal.toList = split at htruth hsplit ⊢
  obtain ⟨f, ss⟩ := split
  cases ss with
  | nil =>
      obtain ⟨ns, n, rfl, hown⟩ := reaches_own hreach
      obtain rfl : f = literal.toList := hsplit
      have hlast : truth = literal.toList.isSuffixOf n.toList := by
        refine Bool.eq_iff_iff.2 (htruth.trans ?_)
        rw [List.isSuffixOf_iff_suffix, pieces, List.map_append, ← List.cons_append]
        constructor
        · rintro ⟨front, q, heq, h⟩
          have hq := (List.append_inj' heq rfl).2
          rwa [(List.cons.inj hq).1]
        · intro h
          exact ⟨_, n.toList, rfl, h⟩
      rw [hlast]
      exact ⟨rfl, holds_along_kind hown .endsWith literal⟩
  | cons s ss =>
      simp only [List.map_cons, reduceCtorEq, if_false, hpaths]
      split
      · -- The literal has more pieces than a qualified name of the mapping.
        rename_i hlong
        cases truth with
        | false => exact never_tells
        | true =>
            obtain ⟨front, q, heq, _⟩ := htruth.1 rfl
            have hl := congrArg List.length heq
            simp only [pieces, List.length_cons, List.length_map, List.length_append] at hl hlong
            omega
      · rename_i hshort
        rw [← List.map_cons]
        refine endsAlong_tells hreach ?_ htruth
        simp only [List.length_cons, List.length_map] at hshort ⊢
        omega

end Exact

/-- Wherever colons stand in the text, there are just two of them. -/
def PairedColons (l : List Char) : Prop :=
  ∀ run ∈ l.splitBy (· == ·), ':' ∈ run → run.length = 2

instance (l : List Char) : Decidable (PairedColons l) :=
  inferInstanceAs (Decidable (∀ run ∈ l.splitBy (· == ·), ':' ∈ run → run.length = 2))

theorem startsInSeparator_of_pairedColons {l : List Char} (h : PairedColons l) :
    Text.startsInSeparator l = false := by
  cases hl : Text.startsInSeparator l with
  | false => rfl
  | true =>
      obtain ⟨hfirst, hsecond⟩ := Bool.and_eq_true_iff.1 hl
      obtain ⟨r, rfl⟩ := List.head?_eq_some_iff.1 (beq_iff_eq.1 hfirst)
      -- The first run is one colon.
      have hrun : [':'] ∈ (':' :: r).splitBy (· == ·) := by
        cases r with
        | nil => decide
        | cons c r =>
            have hc : ':' ≠ c := by
              rintro rfl
              exact absurd hsecond (by simp)
            have hsplit := List.splitBy_append_cons (r := fun a b : Char => a == b)
              (l := [':']) (a := c) r (by simp [hc])
            rw [← List.singleton_append, hsplit]
            exact List.mem_append_left _ (by decide)
      exact absurd (h [':'] hrun List.mem_cons_self) (by decide)

theorem ends_folded (hm : m.checked = .ok m) (ha : ':' ∉ m.assetType.toList)
    (hpaths : m.contextPaths = some paths) (hr : r.Nameable m name)
    (hreach : cat.ReachesAll r paths r.contextNames) (hl : PairedColons literal.toList) :
    ∃ qn, r.qualifiedName none m.mark = some qn ∧
      (fold m (.literal .endsWith literal)).approximate = false ∧
      (fold m (.literal .endsWith literal)).folded.holds (cat.holds r) =
        .ok (LiteralKind.endsWith.holds literal.toList qn.toList) := by
  have hhead := EntityMapping.colon_not_mem_identityHead hm ha
  have hall := reachesAll_namePaths hreach hr.value
  obtain ⟨happrox, hholds⟩ := endsWith_tells hhead hpaths hall hr.names literal
  rw [LiteralKind.cutsSeparator, startsInSeparator_of_pairedColons hl, Bool.not_false,
    Bool.and_true] at hholds
  refine ⟨_, hr.qualifiedName, happrox, ?_⟩
  rw [toList_qualifiedName]
  exact hholds

end NameFold

namespace Sample

open MappingTable

/-- Ends of qualified names, and whether the table has them. -/
def endQueries : List (String × Bool) :=
  [("LE::HOST::sales::public::orders", true), ("LES::HOST::sales::public::orders", false),
    ("lic::orders", true), ("::orders", true), ("orders::", false), ("", true)]

theorem ordersTable_ends_folded :
    ordersTable.qualifiedName none Standard.relationalTableType.mark =
      some "tt_DATABASE_TABLE::HOST::sales::public::orders" ∧
    ∀ q ∈ endQueries, NameFold.PairedColons q.1.toList ∧
      (NameFold.fold Standard.relationalTableType (.literal .endsWith q.1)).approximate = false ∧
      (NameFold.fold Standard.relationalTableType (.literal .endsWith q.1)).folded.holds
        (tableCatalog.holds ordersTable) = .ok q.2 := by
  have hgiven : ∀ q ∈ endQueries, NameFold.PairedColons q.1.toList ∧
      LiteralKind.endsWith.holds q.1.toList
        "tt_DATABASE_TABLE::HOST::sales::public::orders".toList = q.2 := by
    decide +kernel
  refine ⟨qualifiedName_ordersTable, fun q hq => ?_⟩
  obtain ⟨hpaired, hvalue⟩ := hgiven q hq
  obtain ⟨qn, hqn, happrox, h⟩ := NameFold.ends_folded (m := Standard.relationalTableType) rfl
    (by decide) rfl nameable_ordersTable reachesAll_ordersTable hpaired
  cases qualifiedName_ordersTable.symm.trans hqn
  exact ⟨hpaired, happrox, h.trans (congrArg Except.ok hvalue)⟩

end Sample

end MetaFed
