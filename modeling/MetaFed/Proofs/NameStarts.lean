import MetaFed.Proofs.Evaluation
import MetaFed.Proofs.ExactName
import MetaFed.Proofs.IdentityHead
import MetaFed.Proofs.Pieces

/-!
Starts and parts of qualified names. Where paths lead to the names of a record's ancestors, a
condition on the start or the inside of its qualified name folds to native conditions. They hold
just if the qualified name meets it, unless the literal has only half of a separator at an edge:
such a literal is never found.
-/

namespace MetaFed

/-- The literal has one colon of a separator, but not the other one. -/
def LiteralKind.cutsSeparator : LiteralKind → List Char → Bool
  | .exact, _ => false
  | .startsWith, l => Text.endsInSeparator l
  | .endsWith, l => Text.startsInSeparator l
  | .contains, l => l.contains ':' && !Text.occursIn Text.separator l

/-- The record is one of the mapping, and its name and those of its ancestors can stand in a
qualified name. -/
structure Record.Nameable (r : Record) (m : EntityMapping) (name : String) : Prop where
  ofType : r.type = m.assetType
  value : r.value Record.nameProperty = .text name
  names : ∀ n ∈ r.contextNames ++ [name], QualifiedName.IsName n

theorem Record.Nameable.qualifiedName {r : Record} {m : EntityMapping} {name : String}
    (h : r.Nameable m name) : r.qualifiedName none m.mark =
      some (QualifiedName.format m.assetType (r.contextNames ++ [name]) m.mark) := by
  have hname : ∀ n ∈ some name, QualifiedName.IsName n := by
    intro n hn
    exact h.names n (by simp [Option.mem_some.1 hn])
  rw [Record.qualifiedName_eq h.value hname, h.ofType]
  rfl

/-- The condition has the same truth value as what it stands for. -/
def Folding.Tells (native : NativeCondition → Attempt Bool) (f : Folding) (truth : Bool) : Prop :=
  f.approximate = false ∧ f.folded.holds native = .ok truth

namespace Catalog

variable {cat : Catalog} {r : Record} {path name : String} {paths names : List String}

/-- Each path leads to the name at its place, and to no other value. -/
abbrev ReachesAll (cat : Catalog) (r : Record) (paths names : List String) : Prop :=
  List.Forall₂ (fun path n => cat.Reaches r path (some n)) paths names

theorem reachesAll_namePaths (h : cat.ReachesAll r paths r.contextNames)
    (hname : r.value Record.nameProperty = .text name) :
    cat.ReachesAll r (NameFold.namePaths paths) (r.contextNames ++ [name]) :=
  List.rel_append h (.cons (reaches_name hname) .nil)

theorem holds_along_kind (h : cat.Reaches r path (some name)) (kind : LiteralKind)
    (value : String) : (NameFold.along path kind.native value).holds (cat.holds r) =
      .ok (kind.holds value.toList name.toList) := by
  have hgiven : ∀ v ∈ some (Value.text name), v.isNull = false := by simp [Value.isNull]
  have hone := NativeOperator.holds_toList hgiven kind.native (.text value)
  have hkind : kind.native.holdsFor (.text name) (.text value) =
      .ok (kind.holds value.toList name.toList) := by
    cases kind with
    | exact =>
        rw [LiteralKind.holds, PropertyOperator.toList_beq, ← Value.text_same_text]
        rfl
    | _ => rfl
  rw [NameFold.along, holds_compare_along, h, Attempt.ok_bind, Option.toList_some,
    List.map_singleton, ← Option.toList_some, hone, Option.getD_some, hkind]

theorem allHold_piece (h : cat.Reaches r path (some name)) (kind : LiteralKind) (t : List Char) :
    Node.allHold (cat.holds r) [NameFold.along path kind.native (String.ofList t)] =
      .ok (kind.holds t name.toList) := by
  rw [← Folded.holds_single_all]
  have hone := holds_along_kind h kind (String.ofList t)
  rwa [String.toList_ofList] at hone

/-- An empty piece is part of every name, so it need not be compared. -/
theorem allHold_part (h : cat.Reaches r path (some name)) (kind : LiteralKind)
    (hnil : kind.holds [] name.toList = true) (t : List Char) :
    Node.allHold (cat.holds r) (if String.ofList t = "" then []
        else [NameFold.along path kind.native (String.ofList t)]) =
      .ok (kind.holds t name.toList) := by
  by_cases ht : t = []
  · rw [ht, hnil]
    rfl
  · have hne : String.ofList t ≠ "" := fun e => ht (by simpa using congrArg String.toList e)
    rw [if_neg hne]
    exact allHold_piece h kind t

/-- Comparisons of names with the pieces of a text hold just if these are the first pieces. -/
theorem allHold_startsAlong (h : cat.ReachesAll r paths names) (t : List Char)
    (ss : List (List Char)) (hl : ss.length < paths.length) :
    Node.allHold (cat.holds r) (NameFold.startsAlong paths ((t :: ss).map String.ofList)) =
      .ok (Text.startPieces t ss (names.map String.toList)) := by
  induction h generalizing t ss with
  | nil => cases hl
  | @cons p n ps ns hp hps ih =>
      cases ss with
      | nil => exact allHold_part hp .startsWith rfl t
      | cons s ss =>
          have hfirst := allHold_piece hp .exact t
          have hrest := ih s ss (Nat.lt_of_succ_lt_succ hl)
          refine (Node.allHold_append hfirst hrest).trans (congrArg Except.ok ?_)
          rw [List.map_cons, Text.startPieces, LiteralKind.holds, Bool.beq_comm]

theorem anyHolds_contains (h : cat.ReachesAll r paths names) (value : String) :
    Node.anyHolds (cat.holds r) (paths.map (NameFold.along · .contains value)) =
      .ok (names.any fun n => Text.occursIn value.toList n.toList) := by
  induction h with
  | nil => rfl
  | @cons p n ps ns hp _ ih =>
      have hfirst := holds_along_kind hp .contains value
      rw [LiteralKind.native] at hfirst
      rw [List.map_cons, Node.anyHolds, hfirst, Attempt.ok_bind, List.any_cons, ih,
        LiteralKind.holds]
      cases Text.occursIn value.toList n.toList <;> rfl

end Catalog

namespace NameFold

open Catalog

variable {cat : Catalog} {m : EntityMapping} {r : Record} {paths names : List String}
  {native : NativeCondition → Attempt Bool}

theorem never_tells : never.Tells native false := ⟨rfl, rfl⟩

theorem always_tells : always.Tells native true := ⟨rfl, rfl⟩

theorem conjunction_tells {ns : List Node} {truth : Bool} (h : Node.allHold native ns = .ok truth) :
    Folding.Tells native ⟨conjunction ns, false⟩ truth :=
  ⟨rfl, (Folded.holds_conjunction ns).trans h⟩

/-- The pieces of a qualified name with these names. -/
def pieces (m : EntityMapping) (names : List String) : List (List Char) :=
  m.identityHead.toList :: names.map String.toList

theorem pieces_given (h : ∀ n ∈ names, QualifiedName.IsName n) :
    ∀ q ∈ names.map String.toList, q ≠ [] ∧ ':' ∉ q := by
  intro q hq
  obtain ⟨n, hn, rfl⟩ := List.mem_map.1 hq
  exact ⟨fun e => (h n hn).1 (String.toList_eq_nil_iff.1 e), (h n hn).2⟩

section Exact

variable (hhead : ':' ∉ m.identityHead.toList) (hpaths : m.contextPaths = some paths)
  (hreach : cat.ReachesAll r (namePaths paths) names)
  (hnames : ∀ n ∈ names, QualifiedName.IsName n)

include hhead hpaths hreach hnames

theorem startsWith_tells (literal : String) :
    (startsWith m literal).Tells (cat.holds r)
      (LiteralKind.startsWith.holds literal.toList (Text.joined Text.separator (pieces m names)) &&
        !LiteralKind.startsWith.cutsSeparator literal.toList) := by
  have htruth : (literal.toList.isPrefixOf (Text.joined Text.separator (pieces m names)) &&
      !Text.endsInSeparator literal.toList) =
        Text.startPieces (Text.segments literal.toList).1 (Text.segments literal.toList).2
          (pieces m names) := by
    refine Bool.eq_iff_iff.2 (Iff.trans ?_ (Text.prefix_joined_iff hhead (pieces_given hnames)))
    rw [Bool.and_eq_true, List.isPrefixOf_iff_prefix, Bool.not_eq_true', pieces]
  rw [LiteralKind.holds, LiteralKind.cutsSeparator, htruth, startsWith]
  obtain ⟨h, ss⟩ := Text.segments literal.toList
  cases ss with
  | nil =>
      simp only [List.map_nil, if_true, pieces, Text.startPieces]
      cases h.isPrefixOf m.identityHead.toList with
      | true => exact always_tells
      | false => exact never_tells
  | cons s ss =>
      have hlength := hreach.length_eq
      simp only [List.map_cons, reduceCtorEq, if_false, hpaths, pieces, Text.startPieces]
      by_cases hh : h = m.identityHead.toList
      · rw [hh, String.ofList_toList, beq_self_eq_true, Bool.true_and]
        simp only [ne_eq, not_true_eq_false, if_false]
        split
        · -- The literal has more pieces than a qualified name of the mapping.
          rename_i hlong
          cases hstart : Text.startPieces s ss (names.map String.toList) with
          | false => exact never_tells
          | true =>
              have hlt := Text.lt_length_of_startPieces hstart
              simp [namePaths] at hlong hlength hlt
              omega
        · rename_i hshort
          refine conjunction_tells (allHold_startsAlong hreach s ss ?_)
          simp only [List.length_cons, List.length_map, namePaths, List.length_append] at hshort ⊢
          omega
      · have hne : String.ofList h ≠ m.identityHead := by
          rintro e
          exact hh (by rw [← e, String.toList_ofList])
        rw [if_pos hne, beq_false_of_ne hh, Bool.false_and]
        exact never_tells

theorem contains_tells (literal : String) (happrox : (contains m literal).approximate = false) :
    (contains m literal).Tells (cat.holds r)
      (LiteralKind.contains.holds literal.toList (Text.joined Text.separator (pieces m names)) &&
        !LiteralKind.contains.cutsSeparator literal.toList) := by
  have hsep : Text.occursIn Text.separator literal.toList = false := by
    cases h : Text.occursIn Text.separator literal.toList with
    | false => rfl
    | true =>
        have h' : Text.occursIn "::".toList literal.toList = true := h
        simp only [contains, hpaths, if_pos h'] at happrox
        cases happrox
  have htruth : (Text.occursIn literal.toList (Text.joined Text.separator (pieces m names)) &&
      !LiteralKind.contains.cutsSeparator literal.toList) =
        (pieces m names).any fun q => Text.occursIn literal.toList q := by
    refine Bool.eq_iff_iff.2 ?_
    simp only [LiteralKind.cutsSeparator, hsep, Bool.not_false, Bool.and_true, Bool.and_eq_true,
      Bool.not_eq_true', List.any_eq_true, Text.occursIn_iff]
    by_cases hc : ':' ∈ literal.toList
    · -- Neither the head nor a name has a colon.
      have hno : ¬∃ q ∈ pieces m names, literal.toList <:+: q := by
        rintro ⟨q, hq, h⟩
        rcases List.mem_cons.1 hq with rfl | hq
        · exact hhead (h.subset hc)
        · exact (pieces_given hnames q hq).2 (h.subset hc)
      simp [hc, hno]
    · have hne : pieces m names ≠ [] := List.cons_ne_nil _ _
      rw [Text.infix_joined_iff hc hne]
      simp [hc]
  have hany := anyHolds_contains hreach literal
  have hsep' : Text.occursIn "::".toList literal.toList = false := hsep
  have hne : (namePaths paths).map (along · .contains literal) ≠ [] := by simp [namePaths]
  rw [LiteralKind.holds, htruth, pieces, List.any_cons, List.any_map]
  simp only [contains, hpaths, hsep', Bool.false_eq_true, if_false]
  split
  · rename_i hin
    rw [hin, Bool.true_or]
    exact always_tells
  · rename_i hout
    rw [Bool.not_eq_true] at hout
    rw [hout, Bool.false_or]
    generalize (namePaths paths).map (along · .contains literal) = ns at hany hne ⊢
    cases ns with
    | nil => exact absurd rfl hne
    | cons n ns =>
        cases ns with
        | nil => exact ⟨rfl, (Folded.holds_single_any n).trans hany⟩
        | cons n' ns => exact ⟨rfl, (Node.holds_any hne).trans hany⟩

end Exact

variable {kind : LiteralKind} {name literal : String}

theorem toList_qualifiedName (m : EntityMapping) (names : List String) :
    (QualifiedName.format m.assetType names m.mark).toList =
      Text.joined Text.separator (pieces m names) :=
  QualifiedName.toList_format m.assetType names m.mark

/-- A start and a part of a qualified name fold to conditions that hold for the records whose
qualified names have them, unless half of a separator is asked for: that is never found. -/
theorem parts_folded (hm : m.checked = .ok m) (ha : ':' ∉ m.assetType.toList)
    (hpaths : m.contextPaths = some paths) (hr : r.Nameable m name)
    (hreach : cat.ReachesAll r paths r.contextNames)
    (hkind : kind = .startsWith ∨ kind = .contains)
    (happrox : (fold m (.literal kind literal)).approximate = false) :
    ∃ qn, r.qualifiedName none m.mark = some qn ∧
      (fold m (.literal kind literal)).folded.holds (cat.holds r) =
        .ok (kind.holds literal.toList qn.toList && !kind.cutsSeparator literal.toList) := by
  refine ⟨_, hr.qualifiedName, ?_⟩
  rw [toList_qualifiedName]
  have hhead := EntityMapping.colon_not_mem_identityHead hm ha
  have hall := reachesAll_namePaths hreach hr.value
  rcases hkind with rfl | rfl
  · exact (startsWith_tells hhead hpaths hall hr.names literal).2
  · exact (contains_tells hhead hpaths hall hr.names literal happrox).2

end NameFold

namespace Sample

open MappingTable

def publicSchema : Record :=
  { ref := ⟨"schema-1", "database_schema", some "public"⟩,
    properties := [("database", .reference hostedDatabase.ref)],
    context := [capitalHost.ref, hostedDatabase.ref] }

def ordersTable : Record :=
  { ref := ⟨"table-1", "database_table", some "orders"⟩,
    properties := [("database_schema", .reference publicSchema.ref)],
    context := [capitalHost.ref, hostedDatabase.ref, publicSchema.ref] }

def tableCatalog : Catalog := (hostedService.catalog.put publicSchema).put ordersTable

theorem nameable_ordersTable : ordersTable.Nameable Standard.relationalTableType "orders" where
  ofType := rfl
  value := rfl
  names := by decide

theorem reachesAll_ordersTable :
    tableCatalog.ReachesAll ordersTable (Standard.tablePaths "") ordersTable.contextNames := by
  exact .cons rfl (.cons rfl (.cons rfl .nil))

theorem qualifiedName_ordersTable :
    ordersTable.qualifiedName none Standard.relationalTableType.mark =
      some "tt_DATABASE_TABLE::HOST::sales::public::orders" := by
  decide +kernel

/-- Conditions on a start or a part of the qualified name, and whether they are found to hold. -/
def partQueries : List (LiteralKind × String × Bool) :=
  [(.startsWith, "tt_DATABASE_TABLE::HOST::sales::pub", true),
    (.startsWith, "tt_DATABASE_TABLE::HOST::sales:", false),
    (.contains, "ubli", true), (.contains, "s:", false)]

theorem ordersTable_parts_folded :
    ordersTable.qualifiedName none Standard.relationalTableType.mark =
      some "tt_DATABASE_TABLE::HOST::sales::public::orders" ∧
    ∀ q ∈ partQueries,
      (NameFold.fold Standard.relationalTableType (.literal q.1 q.2.1)).approximate = false ∧
      (NameFold.fold Standard.relationalTableType (.literal q.1 q.2.1)).folded.holds
        (tableCatalog.holds ordersTable) = .ok q.2.2 := by
  have hgiven : ∀ q ∈ partQueries, (q.1 = .startsWith ∨ q.1 = .contains) ∧
      (NameFold.fold Standard.relationalTableType (.literal q.1 q.2.1)).approximate = false ∧
      (q.1.holds q.2.1.toList "tt_DATABASE_TABLE::HOST::sales::public::orders".toList &&
        !q.1.cutsSeparator q.2.1.toList) = q.2.2 := by
    decide +kernel
  refine ⟨qualifiedName_ordersTable, fun q hq => ?_⟩
  obtain ⟨hkind, happrox, hvalue⟩ := hgiven q hq
  obtain ⟨qn, hqn, h⟩ := NameFold.parts_folded (m := Standard.relationalTableType) rfl
    (by decide) rfl nameable_ordersTable reachesAll_ordersTable hkind happrox
  cases qualifiedName_ordersTable.symm.trans hqn
  exact ⟨happrox, h.trans (congrArg Except.ok hvalue)⟩

/-- The qualified name of the host starts with `HOST:` and has `T:` in it, but the conditions that
stand for this hold for no record. -/
theorem half_separators_missed : Standard.host.checked = .ok Standard.host ∧
    ':' ∉ Standard.host.assetType.toList ∧ Standard.host.contextPaths = some [] ∧
    capitalHost.Nameable Standard.host "HOST" ∧
    tableCatalog.ReachesAll capitalHost [] capitalHost.contextNames ∧
    capitalHost.qualifiedName none Standard.host.mark = some "HOST::HOST" ∧
    ∀ q ∈ [(LiteralKind.startsWith, "HOST:"), (.contains, "T:")],
      q.1.holds q.2.toList "HOST::HOST".toList = true ∧
      (NameFold.fold Standard.host (.literal q.1 q.2)).approximate = false ∧
      (NameFold.fold Standard.host (.literal q.1 q.2)).folded.holds
        (tableCatalog.holds capitalHost) = .ok false := by
  refine ⟨rfl, by decide, rfl, ⟨rfl, rfl, by decide⟩, .nil, by decide +kernel, fun q hq => ?_⟩
  rcases List.mem_pair.1 hq with rfl | rfl
  · exact ⟨by decide, by decide +kernel, rfl⟩
  · exact ⟨by decide, by decide +kernel, rfl⟩

end Sample

end MetaFed
