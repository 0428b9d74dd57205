import MetaFed.Collection.Types
import MetaFed.Wire

/-!
Settings, refusals and reports of a collection as messages.
-/

namespace MetaFed

open Wire

namespace Settings

/-- Reads settings; those left out have their defaults, and the home is `home-1`. -/
def read (v : Value) : Attempt Settings :=
  let d : Settings := { home := "home-1" }
  Settings.checked
    { home := textAtOr v "home_collection_id" d.home,
      repositoryName := textAtOr v "repository_name" d.repositoryName,
      timeout := if hasField v "transport_timeout_seconds" then
        present (field v "transport_timeout_seconds") else d.timeout,
      baseType := textAtOr v "base_type" d.baseType,
      defaultAssetType := textAtOr v "default_asset_type" d.defaultAssetType,
      foreignMark := if hasField v "foreign_name_prefix" then optTextAt v "foreign_name_prefix"
        else d.foreignMark,
      exclusions := if hasField v "text_search_exclusions" then
        textLists (field v "text_search_exclusions") else d.exclusions }
where
  present (v : Value) : Option Value := if v.isNull then none else some v

def toValue (s : Settings) : Value :=
  .dict [("home_collection_id", .text s.home), ("repository_name", .text s.repositoryName),
    ("transport_timeout_seconds", s.timeout.getD .null), ("base_type", .text s.baseType),
    ("default_asset_type", .text s.defaultAssetType),
    ("foreign_name_prefix", .ofText? s.foreignMark),
    ("text_search_exclusions", .dict (s.exclusions.map fun (k, ns) => (k, .texts ns)))]

end Settings

def TypeCoverage.toValue (t : TypeCoverage) : Value :=
  .dict [("type_name", .text t.type), ("supported", .bool t.supported),
    ("unmapped_attributes", .texts t.unmapped)]

def Refusal.entries (r : Refusal) : Assoc String Value :=
  [("error", .text r.cause.code), ("message", .text r.cause.message),
    ("operation", .ofText? r.operation), ("params", .dict r.params)] ++
    match r.cause with
    | .typeNotMapped _ ss => [("suggestions", .texts ss)]
    | _ => []

end MetaFed
