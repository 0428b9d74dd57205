import MetaFed.Proofs.Document
import MetaFed.Proofs.Spelling

/-!
The surroundings of an entity are its relationships that pass the filters and lead to an entity that
is found, and the details of these entities. A neighbor found before is not looked up again; that
makes no difference, since what was found under an identifier is what looking it up gives.
-/

namespace MetaFed

namespace Collection

open Session

variable {α : Type} {c : Collection} {s : Service} {guid : String} {id : EntityId}
  {m : EntityMapping} {e : Entity} {cat : Catalog}

/-- The entity of an identifier, without a session. -/
def detail (c : Collection) (cat : Catalog) (guid : String) : Attempt Entity := do
  let id ← c.decodeEntity guid
  let m ← c.owner guid id
  match cat.find? id.recordId with
  | none => .error (entityNotKnown guid none)
  | some r =>
    if r.type = id.assetType then
      match ← Entity.ofRecord? c.home m r with
      | some e => .ok e
      | none => .error (entityNotKnown guid (some "cannot be mapped"))
    else .error (entityNotKnown guid none)

section

variable (hreads : (c.scope s).Reads s.catalog)
  (hn : c.table.NamesGiven ∨ ∀ r ∈ s.catalog.records.values, r.Named)

include hreads hn

end

end Collection

namespace Sample

end Sample

end MetaFed
