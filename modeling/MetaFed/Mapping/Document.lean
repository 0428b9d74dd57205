import MetaFed.Json.Reader
import MetaFed.Mapping.Table

/-!
Mapping tables as documents. A document has fields with fixed names, some of which may be left
out; any other field makes it invalid. Relationships are declared once, under a key, and listed by
key in every entity mapping that takes part in them.
-/

namespace MetaFed

namespace Document

/-- Fields of an object that has no others than the known ones. -/
def fields? (known : List String) : Value → Option (Assoc String Value)
  | .dict es => if es.all fun e => known.contains e.1 then some es else none
  | _ => none

def text? : Value → Option String
  | .text s => some s
  | _ => none

def yesWords : List String := ["1", "on", "t", "true", "y", "yes"]

def noWords : List String := ["0", "off", "f", "false", "n", "no"]

/-- A truth value, also as the number 1 or 0 or as a word in any case. -/
def flag? (v : Value) : Option Bool :=
  match v with
  | .text s =>
    let w := String.ofList (s.toList.map Char.toLower)
    if yesWords.contains w then some true
    else if noWords.contains w then some false
    else none
  | v =>
    if v.same (.int 1) then some true
    else if v.same (.int 0) then some false
    else none

def optional? {α : Type} (read : Value → Option α) : Value → Option (Option α)
  | .null => some none
  | v => (read v).map some

def list? {α : Type} (read : Value → Option α) : Value → Option (List α)
  | .list vs => vs.mapM read
  | _ => none

def word? {α : Type} (words : Assoc String α) : Value → Option α
  | .text s => Assoc.find? s words
  | _ => none

def required? {α : Type} (es : Assoc String Value) (name : String) (read : Value → Option α) :
    Option α :=
  (Assoc.find? name es).bind read

def defaulted? {α : Type} (es : Assoc String Value) (name : String) (default : α)
    (read : Value → Option α) : Option α :=
  match Assoc.find? name es with
  | some v => read v
  | none => some default

end Document

open Document

def SimpleProperty.ofValue? (v : Value) : Option SimpleProperty := do
  let es ← fields? ["backend", "abstract", "required"] v
  let backend ← required? es "backend" text?
  let abstract ← required? es "abstract" text?
  let required ← defaulted? es "required" false flag?
  some { backend, abstract, required }

def ComplexKind.words : Assoc String ComplexKind :=
  [("qualified_name", .qualifiedName), ("literal", .literal), ("reference_name", .referenceName)]

/-- Reads a complex property; the name of a referenced record needs a catalog property. -/
def ComplexProperty.ofValue? (v : Value) : Option ComplexProperty := do
  let es ← fields? ["abstract", "kind", "backend", "literal"] v
  let abstract ← required? es "abstract" text?
  let kind ← required? es "kind" (word? ComplexKind.words)
  let backend ← defaulted? es "backend" none (optional? text?)
  let literal ← defaulted? es "literal" .null some
  if kind = .referenceName ∧ ¬ isGiven backend then none
  else some { abstract, kind, backend, literal }

def Signal.words : Assoc String Signal := [("present", .present), ("equals", .equals)]

def ClassificationMapping.ofValue? (v : Value) : Option ClassificationMapping := do
  let es ← fields? ["name", "backend_property", "signal", "value", "properties"] v
  let name ← required? es "name" text?
  let backend ← required? es "backend_property" text?
  let signal ← defaulted? es "signal" .present (word? Signal.words)
  let value ← defaulted? es "value" .null some
  let properties ← defaulted? es "properties" [] (list? SimpleProperty.ofValue?)
  some { name, backend, signal, value, properties }

def EndMapping.ofValue? (v : Value) : Option EndMapping := do
  let es ← fields? ["asset_type", "prefix", "navigation_property", "link_property"] v
  let assetType ← required? es "asset_type" text?
  let mark ← defaulted? es "prefix" none (optional? text?)
  let navigation ← defaulted? es "navigation_property" none (optional? text?)
  let link ← defaulted? es "link_property" none (optional? text?)
  some { assetType, mark, navigation, link }

def RelationshipKind.words : Assoc String RelationshipKind :=
  [("reference", .reference), ("self", .self), ("relationship_level", .level)]

def RelationshipMapping.keyedOfValue? (v : Value) : Option (String × RelationshipMapping) := do
  let es ← fields? ["key", "relationship_type", "kind", "proxy_one", "proxy_two",
    "relationship_level_type", "properties"] v
  let key ← required? es "key" text?
  let type ← required? es "relationship_type" text?
  let kind ← required? es "kind" (word? RelationshipKind.words)
  let one ← required? es "proxy_one" EndMapping.ofValue?
  let two ← required? es "proxy_two" EndMapping.ofValue?
  let levelType ← defaulted? es "relationship_level_type" none (optional? text?)
  let properties ← defaulted? es "properties" [] (list? SimpleProperty.ofValue?)
  some (key, { type, kind, one, two, levelType, properties })

def NativeCondition.ofValue? (v : Value) : Option NativeCondition := do
  let es ← fields? ["property", "operator", "value", "negated"] v
  let property ← required? es "property" text?
  let operator ← required? es "operator" fun w => (text? w).bind NativeOperator.ofWord?
  let value ← defaulted? es "value" .null some
  let negated ← defaulted? es "negated" false flag?
  some { property, operator, value, negated }

def EntityMapping.keyedOfValue? (v : Value) : Option (List String × EntityMapping) := do
  let es ← fields? ["abstract_type", "asset_type", "prefix", "simple_properties",
    "complex_properties", "classifications", "relationships", "context_properties",
    "type_conditions", "searchable"] v
  let abstractType ← required? es "abstract_type" text?
  let assetType ← required? es "asset_type" text?
  let mark ← defaulted? es "prefix" none (optional? text?)
  let simple ← defaulted? es "simple_properties" [] (list? SimpleProperty.ofValue?)
  let complex ← defaulted? es "complex_properties" [] (list? ComplexProperty.ofValue?)
  let classifications ←
    defaulted? es "classifications" [] (list? ClassificationMapping.ofValue?)
  let keys ← defaulted? es "relationships" [] (list? text?)
  let contextPaths ← defaulted? es "context_properties" (some []) (optional? (list? text?))
  let typeConditions ← defaulted? es "type_conditions" [] (list? NativeCondition.ofValue?)
  let searchable ← defaulted? es "searchable" true flag?
  some (keys, ⟨abstractType, assetType, mark, simple, complex, classifications, [], contextPaths,
    typeConditions, searchable⟩)

/-- A document: relationships under their keys, and entity mappings with the keys they list. -/
structure MappingDocument where
  baseType : String
  unsupported : List String
  relationships : List (String × RelationshipMapping)
  mappings : List (List String × EntityMapping)
  deriving Repr

namespace MappingDocument

/-- Reads a document; `defaultBase` is the base type of one that names none. -/
def ofValue? (defaultBase : String) (v : Value) : Option MappingDocument := do
  let es ← fields? ["base_type", "unsupported_types", "relationships", "mappings"] v
  let baseType ← defaulted? es "base_type" defaultBase text?
  let unsupported ← defaulted? es "unsupported_types" [] (list? text?)
  let relationships ←
    defaulted? es "relationships" [] (list? RelationshipMapping.keyedOfValue?)
  let mappings ← required? es "mappings" (list? EntityMapping.keyedOfValue?)
  some { baseType, unsupported, relationships, mappings }

/-- The relationships of a document after those before them, if no key repeats and nothing is
wrong with any of them. -/
def declared (before : Assoc String RelationshipMapping) :
    List (String × RelationshipMapping) → Attempt (Assoc String RelationshipMapping)
  | [] => .ok before
  | (k, r) :: rs => do
    if Assoc.has k before then refuse (.configuration (.duplicateKey k))
    else declared (before ++ [(k, ← r.checked)]) rs

def linked (known : Assoc String RelationshipMapping) (keys : List String) (m : EntityMapping) :
    Attempt EntityMapping :=
  match keys.filter fun k => !Assoc.has k known with
  | [] => { m with relationships := keys.filterMap fun k => Assoc.find? k known }.checked
  | missing => refuse (.configuration (.undeclaredRelationships m.abstractType missing))

def table (d : MappingDocument) (h : Hierarchy) : Attempt MappingTable := do
  let known ← declared [] d.relationships
  let ms ← d.mappings.mapM fun (keys, m) => linked known keys m
  MappingTable.build h ms d.baseType d.unsupported

end MappingDocument

namespace MappingTable

def ofDocument (h : Hierarchy) (defaultBase : String) (v : Value) : Attempt MappingTable :=
  match MappingDocument.ofValue? defaultBase v with
  | some d => d.table h
  | none => refuse (.configuration .invalidDocument)

def ofJson (h : Hierarchy) (defaultBase text : String) : Attempt MappingTable :=
  match Json.read? text with
  | some v => ofDocument h defaultBase v
  | none => refuse (.configuration .invalidDocument)

end MappingTable

end MetaFed
