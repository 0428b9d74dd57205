import MetaFed.Proofs.ExactName
import MetaFed.Proofs.NameText

/-!
The owners of heads. A head tells its mapping if the asset type and the synthetic prefix are spelled
as heads spell them, and then a qualified name of an entity leads back to the mapping that made it.
Neither the checks of a mapping nor those of a table ask for such a spelling.
-/

namespace MetaFed

namespace QualifiedName

variable {c : Char} {cs : List Char}

theorem isLower_toLower (h : c.isUpper = true) : c.toLower.isLower = true :=
  Text.of_ascii (P := fun c => c.isUpper = true → c.toLower.isLower = true) (by decide)
    (ascii_of_isUpper h) h

theorem isAssetTypeChar_toLower (h : isAssetChar c = true) : isAssetTypeChar c.toLower = true :=
  Text.of_ascii (P := fun c => isAssetChar c = true → isAssetTypeChar c.toLower = true) (by decide)
    (ascii_of_isAssetChar h) h

theorem isAssetType_lowered (h : isAsset cs = true) :
    isAssetType (parseHead?.lowered cs).toList = true := by
  rw [parseHead?.lowered, String.toList_ofList]
  cases cs with
  | nil => cases h
  | cons c cs =>
      have hchars := isAssetChar_of_isAsset h
      obtain ⟨hc, _⟩ := Bool.and_eq_true_iff.1 h
      refine Bool.and_eq_true_iff.2 ⟨isLower_toLower hc, List.all_eq_true.2 fun d hd => ?_⟩
      obtain ⟨e, he, rfl⟩ := List.mem_map.1 hd
      exact isAssetTypeChar_toLower (hchars e (List.mem_cons_of_mem c he))

end QualifiedName

namespace EntityMapping

open QualifiedName

variable {m n : EntityMapping}

/-- The asset type and the synthetic prefix are spelled as heads spell them. -/
structure PlainHead (m : EntityMapping) : Prop where
  assetType : isAssetType m.assetType.toList = true
  mark : ∀ p ∈ m.mark, isMark p.toList = true

/-- Just the parts of a plain head are told again. -/
theorem parseHead?_identityHead_iff :
    parseHead? m.identityHead = some (m.assetType, m.mark) ↔ m.PlainHead := by
  constructor
  · intro h
    obtain ⟨asset, hasset, htype, ⟨hmark, _⟩ | ⟨p, hp, hmark, _⟩⟩ := parseHead?_eq_some h
    · refine ⟨htype ▸ isAssetType_lowered hasset, fun p hp => ?_⟩
      rw [hmark] at hp
      cases hp
    · refine ⟨htype ▸ isAssetType_lowered hasset, fun q hq => ?_⟩
      rw [hmark] at hq
      cases hq
      rwa [String.toList_ofList]
  · exact fun h => parseHead?_headOf_of_parts h.assetType h.mark

end EntityMapping

namespace Planner

open MappingTable QualifiedName

variable {p : Planner} {m n : EntityMapping} {names : List String}

theorem eq_of_identityHead (ht : p.table.Accepted) (hm : m ∈ backed p.table.mappings)
    (hn : n ∈ backed p.table.mappings) (hpm : m.PlainHead) (hpn : n.PlainHead)
    (h : n.identityHead = m.identityHead) : n = m := by
  have hparts := EntityMapping.parseHead?_identityHead_iff.2 hpn
  rw [h, EntityMapping.parseHead?_identityHead_iff.2 hpm] at hparts
  obtain ⟨hasset, hmark⟩ := Prod.mk.inj (Option.some.inj hparts)
  exact ht.eq_of_identity hn hm hasset.symm hmark.symm

section Owned

variable (ht : p.table.Accepted) (hm : m ∈ backed p.table.mappings) (hp : m.PlainHead)
  (hne : names ≠ [])

include hp hne

theorem segments_of_plain : ∃ piece pieces,
    Text.segments (format m.assetType names m.mark).toList =
      (m.identityHead.toList, piece :: pieces) := by
  have hhead := colon_not_mem_headOf (EntityMapping.parseHead?_identityHead_iff.2 hp)
  have hpieces : names.map String.toList ≠ [] := fun he => hne (List.map_eq_nil_iff.1 he)
  rw [toList_format, Text.joined_cons _ hpieces, Text.segments_append_of_not_mem hhead]
  exact ⟨_, _, rfl⟩

theorem parts_of_parse? {q : QualifiedName} {isPartial : Bool}
    (h : parse? (format m.assetType names m.mark) isPartial = some q) :
    q.assetType = m.assetType ∧ q.mark = if isPartial then none else m.mark := by
  obtain ⟨piece, pieces, hs⟩ := segments_of_plain hp hne
  obtain ⟨head, ns, a, k, hs', hhead, _, _, rfl⟩ := parse?_eq_some_iff.1 h
  rw [hs] at hs'
  obtain ⟨rfl, _⟩ := Prod.mk.inj hs'
  rw [String.ofList_toList, EntityMapping.parseHead?_identityHead_iff.2 hp] at hhead
  obtain ⟨rfl, rfl⟩ := Prod.mk.inj (Option.some.inj hhead)
  exact ⟨rfl, rfl⟩

include ht hm

theorem owners_startsWith :
    p.owners? .startsWith (format m.assetType names m.mark) = some [m] := by
  obtain ⟨piece, pieces, hs⟩ := segments_of_plain hp hne
  have hhead := EntityMapping.parseHead?_identityHead_iff.2 hp
  simp only [owners?, hs, String.ofList_toList, hhead, Option.map_some, ht.forIdentity_of_mem hm,
    Option.toList_some]

theorem owners_exact {ms : List EntityMapping}
    (h : p.owners? .exact (format m.assetType names m.mark) = some ms) : ms = [m] := by
  obtain ⟨q, hq, rfl⟩ := Option.map_eq_some_iff.1 h
  obtain ⟨hasset, hmark⟩ := parts_of_parse? hp hne hq
  rw [hasset, hmark, if_neg Bool.false_ne_true, ht.forIdentity_of_mem hm, Option.toList_some]

omit ht in
theorem owners_endsWith {ms : List EntityMapping}
    (h : p.owners? .endsWith (format m.assetType names m.mark) = some ms) : m ∈ ms := by
  have hmem : m ∈ p.table.forAsset m.assetType := List.mem_filter.2 ⟨hm, beq_self_eq_true _⟩
  simp only [owners?] at h
  split at h
  · rename_i q hq
    rw [(parts_of_parse? hp hne hq).1] at h
    split at h
    · cases h
    · cases h
      exact hmem
  · cases h

theorem mem_of_owners {kind : LiteralKind} {ms : List EntityMapping}
    (h : p.owners? kind (format m.assetType names m.mark) = some ms) : m ∈ ms := by
  cases kind with
  | exact =>
      rw [owners_exact ht hm hp hne h]
      exact List.mem_singleton_self m
  | startsWith =>
      rw [owners_startsWith ht hm hp hne] at h
      cases h
      exact List.mem_singleton_self m
  | endsWith => exact owners_endsWith hm hp hne h
  | contains => cases h

omit hne in
theorem owners_exact_of_separable (hnames : Separable names) :
    p.owners? .exact (format m.assetType names m.mark) = some [m] := by
  have hparsed := format_round_trip hp.assetType hp.mark hnames false
  simp only [owners?, hparsed, Bool.false_eq_true, if_false, Option.map_some,
    ht.forIdentity_of_mem hm, Option.toList_some]

end Owned

/-- A text leads to a mapping where it is asked for as a qualified name. -/
structure LeadsTo (p : Planner) (qn : String) (m : EntityMapping) : Prop where
  startsWith : p.owners? .startsWith qn = some [m]
  exact : ∀ ms, p.owners? .exact qn = some ms → ms = [m]
  shortcut : ∀ s kind ms, loneName? s.properties = some (kind, qn) → p.isForeign qn = false →
    p.accepts s m = true → p.shortcut? s = .ok (some ms) → m ∈ ms

theorem leadsTo_of_plain (ht : p.table.Accepted) (hm : m ∈ backed p.table.mappings)
    (hp : m.PlainHead) (hne : names ≠ []) : p.LeadsTo (format m.assetType names m.mark) m where
  startsWith := owners_startsWith ht hm hp hne
  exact _ h := owners_exact ht hm hp hne h
  shortcut s kind ms hlone hforeign haccepts h := by
    simp only [shortcut?, hlone, hforeign, Bool.false_eq_true, if_false] at h
    obtain ⟨_, _, h⟩ := Attempt.bind_eq_ok.1 h
    obtain ⟨ns, hns, rfl⟩ := Option.map_eq_some_iff.1 (Except.ok.inj h)
    exact List.mem_filter.2 ⟨mem_of_owners ht hm hp hne hns, haccepts⟩

/-- Just the mappings with plain heads find their parts in their heads. No two of them share a head,
and the qualified name of each of their entities leads back to them. -/
theorem plain_heads_owned (p : Planner) (ht : p.table.Accepted) (m : EntityMapping)
    (hm : m ∈ backed p.table.mappings) :
    (parseHead? m.identityHead = some (m.assetType, m.mark) ↔ m.PlainHead) ∧
      (m.PlainHead →
        (∀ n ∈ backed p.table.mappings, n.PlainHead → n.identityHead = m.identityHead → n = m) ∧
        ∀ home r e, r.type = m.assetType → m.hasQualifiedName = true →
          Entity.ofRecord home m r = .ok e → ∃ qn, e.qualifiedName = some qn ∧ p.LeadsTo qn m ∧
            (Separable (r.contextNames ++ [(r.value Record.nameProperty).asText]) →
              p.owners? .exact qn = some [m])) := by
  refine ⟨EntityMapping.parseHead?_identityHead_iff, fun hp => ⟨fun n hn hpn h =>
    eq_of_identityHead ht hm hn hp hpn h, fun home r e htype hq he => ?_⟩⟩
  have hnodup := EntityMapping.nodup_complex (ht.checked m (mem_backed.1 hm).1)
  obtain ⟨qn, hqn, hfind⟩ := Entity.exists_qualifiedName hnodup hq he
  have hformat : qn = format m.assetType
      (r.contextNames ++ [(r.value Record.nameProperty).asText]) m.mark := by
    simp only [Record.qualifiedName] at hqn
    split at hqn
    · exact htype ▸ (Option.some.inj hqn).symm
    · cases hqn
  have hne : r.contextNames ++ [(r.value Record.nameProperty).asText] ≠ [] := by simp
  refine ⟨qn, by rw [Entity.qualifiedName, hfind], ?_, fun hnames => ?_⟩
  · exact hformat ▸ leadsTo_of_plain ht hm hp hne
  · exact hformat ▸ owners_exact_of_separable ht hm hp hnames

end Planner

namespace Sample

open MappingTable QualifiedName

/-- A mapping that gives its entities nothing but a qualified name. -/
def namingMapping (abstractType assetType : String) (mark : Option String) : EntityMapping :=
  { abstractType, assetType, mark, complex := [.qualifiedName] }

def tableTypes : EntityMapping := namingMapping "RelationalTableType" "database_table" (some "tt")

def namingPlanner (ms : List EntityMapping) : Planner :=
  ⟨⟨Hierarchy.standard, ms, Hierarchy.Standard.baseType, []⟩, none, []⟩

theorem tableTypes_owned : ∃ qn, (namingPlanner [tableTypes]).LeadsTo qn tableTypes ∧
    (namingPlanner [tableTypes]).owners? .exact qn = some [tableTypes] := by
  have ht : (namingPlanner [tableTypes]).table.Accepted :=
    accepted_of_faultless hierarchy_standard (by decide) (by decide)
  have hm : tableTypes ∈ backed (namingPlanner [tableTypes]).table.mappings :=
    mem_backed.2 ⟨List.mem_singleton_self _, by decide⟩
  obtain ⟨hplain, howned⟩ := Planner.plain_heads_owned _ ht _ hm
  obtain ⟨_, hleads⟩ := howned (hplain.1 (by decide +kernel))
  obtain ⟨e, he⟩ : ∃ e, Entity.ofRecord "home-1" tableTypes
      { ref := ⟨"table-1", "database_table", some "orders"⟩ } = .ok e := ⟨_, rfl⟩
  obtain ⟨qn, _, hto, hexact⟩ := hleads _ _ e rfl rfl he
  refine ⟨qn, hto, hexact ⟨by simp, by decide, by decide, by decide⟩⟩

/-- Asset types and a synthetic prefix that no head spells. -/
def oddMappings : List EntityMapping :=
  [namingMapping "RelationalTable" "DatabaseTable" none,
    namingMapping "RelationalTableType" "database_table" (some "1t"),
    namingMapping "Database" "database" none, namingMapping "Host" "Database" none]

def oddService : Service :=
  { catalog := (({} : Catalog).put { ref := ⟨"table-1", "DatabaseTable", some "sales"⟩ }).put
      { ref := ⟨"table-2", "database_table", some "sales"⟩ } }

/-- The identifiers and qualified names of the entities that a request finds. -/
def oddlyNamed (q : EntitySearch) : Option (List (String × Option String)) :=
  let c : Collection := ⟨{ home := "home-1" }, (namingPlanner oddMappings).table⟩
  match (c.run "find_entities" (c.findEntities oddService q)).1 with
  | .ok (.value es) => some (es.map fun e => (e.guid, e.qualifiedName))
  | _ => none

/-- Heads that tell nothing, or the wrong mapping, or stand for two, and names that find nothing. -/
theorem odd_heads_astray : (namingPlanner oddMappings).table.Accepted ∧
    (backed oddMappings).map (fun m => (m.identityHead, parseHead? m.identityHead)) =
      [("DATABASETABLE", some ("databasetable", none)), ("1t_DATABASE_TABLE", none),
        ("DATABASE", some ("database", none)), ("DATABASE", some ("database", none))] ∧
    oddlyNamed {} = some [("e:home-1::DatabaseTable:table-1", some "DATABASETABLE::sales"),
      ("e:home-1:1t:database_table:table-2", some "1t_DATABASE_TABLE::sales")] ∧
    ∀ qn ∈ ["DATABASETABLE::sales", "1t_DATABASE_TABLE::sales"], oddlyNamed
      { properties := some (.single ⟨qualifiedNameProperty, .eq, .text qn⟩) } = some [] :=
  ⟨accepted_of_faultless hierarchy_standard (by decide +kernel) (by decide +kernel),
    by decide +kernel, by decide +kernel, by decide +kernel⟩

end Sample

end MetaFed
