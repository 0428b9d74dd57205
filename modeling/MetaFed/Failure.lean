import MetaFed.Regex.Trouble
import MetaFed.Text.Similarity
import MetaFed.Value.Text

/-!
How a call can end other than with its result. A refusal is an answer of the federation: it has a
code, a message, the operation that gave it and identifying parameters. A fault is anything else
that stops a call, such as a value that cannot be ordered or a broken connection.
-/

namespace MetaFed

/-- What stops a call apart from a refusal. -/
inductive Fault where
  | incompleteEntityId
  | incompleteLinkId
  | incompleteRecordRef
  /-- Text that names no member of a closed vocabulary. -/
  | unknownWord (word vocabulary : String)
  | unregisteredOperator
  | missingValue (property : String)
  | incomparable
  /-- A record or reference whose fields have the wrong types. -/
  | illFormed
  /-- A search pattern that is no usable regular expression. -/
  | badPattern (t : Regex.Trouble)
  /-- Trouble outside the federation, under its own name. -/
  | external (name : String) (message : Option String)
  deriving DecidableEq, Repr

def Fault.text : Fault → String
  | .incompleteEntityId => worded "ValueError" "home_id, asset_type and record_id must be non-empty"
  | .incompleteLinkId => worded "ValueError" "home_id and relationship_type must be non-empty"
  | .incompleteRecordRef => worded "ValueError" "asset_type and record_id must be non-empty"
  | .unknownWord w v => worded "ValueError" s!"{Text.quoted w} is not a valid {v}"
  | .unregisteredOperator => worded "ValueError" "Unsupported operator for in-memory evaluation"
  | .missingValue p => worded "KeyError" p
  | .incomparable => "TypeError"
  | .illFormed => "ValidationError"
  | .badPattern .malformed => "RegexError"
  | .badPattern .hugeBound => worded "OverflowError" "the repetition number is too large"
  | .badPattern .clashingFlags => worded "ValueError" "ASCII and UNICODE flags are incompatible"
  | .external name (some m) => worded name m
  | .external name none => name ++ "()"
where
  worded (name message : String) : String := name ++ "(" ++ Text.quoted message ++ ")"

/-- What is wrong with a type hierarchy, a mapping table or the settings of a collection. -/
inductive Misconfiguration where
  | stated (message : String)
  | invalidDocument
  | duplicateKey (key : String)
  | undeclaredRelationships (type : String) (keys : List String)
  | duplicateType (name : String)
  | unknownSupertype (name supertype : String)
  | cycle (name : String)
  | sentinelPrefix (type : String)
  | oddPrefix (type mark : String)
  | upperCasePrefix (type mark : String)
  | repeatedProperty (type property : String)
  | unknownEntityType (type : String)
  | repeatedType (type : String)
  | unknownClassification (type classification : String)
  | unknownRelationship (type relationship : String)
  | sharedIdentity (type other head : String)
  | unknownBaseType (type : String)
  | unmappedEnd (relationship assetType : String) (mark : Option String)
  | endWithoutProperty (relationship : String)
  | referenceProperties (relationship : String)
  | selfOfTwoTypes (relationship : String)
  | selfOfOnePrefix (relationship : String)
  | missingLevelType (relationship : String)
  | levelWithoutProperty (relationship : String)
  | missingHome
  | timeoutNotPositive (timeout : Value)
  | baseTypeMismatch (table configured : String)
  deriving Repr

def Misconfiguration.message : Misconfiguration → String
  | .stated m => m
  | .invalidDocument => "Invalid mapping configuration"
  | .duplicateKey k => s!"Duplicate relationship key '{k}'"
  | .undeclaredRelationships t ks =>
    s!"'{t}' references undeclared relationships: " ++ Text.joinedWith ", " ks
  | .duplicateType n => s!"Duplicate type definition '{n}'"
  | .unknownSupertype n s => s!"Type '{n}' extends unknown type '{s}'"
  | .cycle n => s!"Type hierarchy cycle through '{n}'"
  | .sentinelPrefix t => s!"Sentinel mapping for '{t}' cannot carry a prefix"
  | .oddPrefix t m => s!"Prefix {Text.quoted m} of '{t}' must be alphanumeric"
  | .upperCasePrefix t m => s!"Prefix {Text.quoted m} of '{t}' must be lower case"
  | .repeatedProperty t p => s!"Property '{p}' of '{t}' is mapped twice"
  | .unknownEntityType t => s!"Mapping for unknown entity type '{t}'"
  | .repeatedType t => s!"Entity type '{t}' is mapped twice"
  | .unknownClassification t c => s!"'{t}' maps unknown classification '{c}'"
  | .unknownRelationship t r => s!"'{t}' maps unknown relationship '{r}'"
  | .sharedIdentity t o h => s!"'{t}' and '{o}' share backend identity {h}"
  | .unknownBaseType t => s!"Unknown base type '{t}'"
  | .unmappedEnd r a m =>
    s!"Relationship '{r}' ends in unmapped backend type {Text.quoted a} (prefix {quotedOption m})"
  | .endWithoutProperty r => about r "proxy one needs a property"
  | .referenceProperties r => about r "reference links carry no properties"
  | .selfOfTwoTypes r => about r "both ends must share a type"
  | .selfOfOnePrefix r => about r "ends need distinct prefixes"
  | .missingLevelType r => about r "missing relationship-level type"
  | .levelWithoutProperty r => about r "both proxies need a property"
  | .missingHome => "home_collection_id is required"
  | .timeoutNotPositive _ => "transport_timeout_seconds must be positive"
  | .baseTypeMismatch t c =>
    s!"Registry base type '{t}' does not match configured base type '{c}'"
where
  about (relationship what : String) : String :=
    s!"relationship mapping '{relationship}': {what}"

inductive BadParameter where
  | stated (message : String)
  | conditionWithoutProperty
  | negativeStart (start : Int)
  | negativePageSize (size : Int)
  | sequencingWithoutProperty (order : String)
  deriving Repr

def BadParameter.message : BadParameter → String
  | .stated m => m
  | .conditionWithoutProperty => "A property condition needs a property"
  | .negativeStart _ => "start must not be negative"
  | .negativePageSize _ => "page_size must not be negative"
  | .sequencingWithoutProperty _ => "Property sequencing requires a sequencing property"

inductive Unsupported where
  | stated (message : String)
  | history
  | generalPattern
  | textPattern (value : String)
  | requestPattern (property value : String)
  | nativePattern (property value : String)
  | operatorOn (operator property : String)
  | approximation (type value : String)
  | sequencing (type property : String)
  | distance (level : Value)
  deriving Repr

def Unsupported.message : Unsupported → String
  | .stated m => m
  | .history => "Historical queries are not supported"
  | .generalPattern => "General regular expressions cannot be searched in the backend"
  | .textPattern v => s!"Regular expression {Text.quoted v} has no native equivalent"
  | .requestPattern _ v => s!"Regular expression {Text.quoted v} has no native equivalent"
  | .nativePattern p v => s!"Regular expression {Text.quoted v} on '{p}' has no native equivalent"
  | .operatorOn o p => s!"Operator {Text.quoted o} is not supported on '{p}'"
  | .approximation t v =>
    s!"Qualified name match {Text.quoted v} on '{t}' can only be approximated and is not " ++
      "allowed outside an all-match group"
  | .sequencing t p => s!"Cannot sequence '{t}' by '{p}'"
  | .distance _ => "Only direct neighbours (level 1) are supported"

/-- Why the federation refuses a call. -/
inductive Cause where
  | general (message : String)
  | configuration (c : Misconfiguration)
  | invalidParameter (p : BadParameter)
  | typeNotMapped (type : String) (suggestions : List String)
  | typeNotSupported (type reason : String)
  | entityNotKnown (guid : String)
  | relationshipNotKnown (guid : String)
  | malformedIdentity (guid reason : String)
  | functionNotSupported (u : Unsupported)
  | backend (operation : String) (fault : Option Fault)
  deriving Repr

namespace Cause

/-- A type without mapping, with the known types it may have been meant for. -/
def unmapped (type : String) (known : List String) : Cause :=
  .typeNotMapped type (Text.Similarity.suggestions type known)

def code : Cause → String
  | .general _ => "FEDERATION_ERROR"
  | .configuration _ => "CONFIGURATION_ERROR"
  | .invalidParameter _ => "INVALID_PARAMETER"
  | .typeNotMapped .. => "TYPE_NOT_MAPPED"
  | .typeNotSupported .. => "TYPE_NOT_SUPPORTED"
  | .entityNotKnown _ => "ENTITY_NOT_KNOWN"
  | .relationshipNotKnown _ => "RELATIONSHIP_NOT_KNOWN"
  | .malformedIdentity .. => "MALFORMED_IDENTITY"
  | .functionNotSupported _ => "FUNCTION_NOT_SUPPORTED"
  | .backend .. => "BACKEND_COMMUNICATION_ERROR"

def message : Cause → String
  | .general m => m
  | .configuration c => c.message
  | .invalidParameter p => p.message
  | .typeNotMapped t ss =>
    s!"Type '{t}' is not mapped to the backend catalog." ++
      (if ss.isEmpty then "" else " Did you mean: " ++ Text.joinedWith ", " ss ++ "?")
  | .typeNotSupported t r =>
    s!"Type '{t}' is not supported" ++ (if r = "" then "." else s!": {r}")
  | .entityNotKnown g => s!"Entity {Text.quoted g} is not known to this collection."
  | .relationshipNotKnown g => s!"Relationship {Text.quoted g} is not known to this collection."
  | .malformedIdentity g r => s!"Identifier {Text.quoted g} is malformed: {r}"
  | .functionNotSupported u => u.message
  | .backend o f =>
    s!"Backend call '{o}' failed" ++ (match f with | some f => ": " ++ f.text | none => "")

def params : Cause → Assoc String Value
  | .configuration (.timeoutNotPositive t) => [("transport_timeout_seconds", t)]
  | .invalidParameter (.negativeStart n) => [("start", .int n)]
  | .invalidParameter (.negativePageSize n) => [("page_size", .int n)]
  | .invalidParameter (.sequencingWithoutProperty o) => [("sequencing_order", .text o)]
  | .typeNotMapped t _ => [("type_name", .text t)]
  | .typeNotSupported t _ => [("type_name", .text t)]
  | .entityNotKnown g => [("guid", .text g)]
  | .relationshipNotKnown g => [("guid", .text g)]
  | .malformedIdentity g _ => [("guid", .text g)]
  | .functionNotSupported (.textPattern v) => [("value", .text v)]
  | .functionNotSupported (.requestPattern p v) => [("property", .text p), ("value", .text v)]
  | .functionNotSupported (.nativePattern p v) => [("property", .text p), ("value", .text v)]
  | .functionNotSupported (.operatorOn _ p) => [("property", .text p)]
  | .functionNotSupported (.approximation t v) => [("value", .text v), ("type", .text t)]
  | .functionNotSupported (.sequencing t p) =>
    [("type", .text t), ("sequencing_property", .text p)]
  | .functionNotSupported (.distance l) => [("level", l)]
  | .backend o _ => [("transport_operation", .text o)]
  | _ => []

end Cause

/-- An answer that gives the reason why a call has no result. -/
structure Refusal where
  cause : Cause
  operation : Option String := none
  params : Assoc String Value := []
  /-- The cause this refusal stands in for, where it replaces another one. -/
  because : Option Cause := none
  deriving Repr

namespace Refusal

/-- A refusal with the parameters of its cause and further ones, which win. -/
def of (c : Cause) (extra : Assoc String Value) : Refusal :=
  { cause := c, params := Assoc.overlay extra c.params }

def withOperation (o : String) (r : Refusal) : Refusal :=
  { r with operation := some (r.operation.getD o) }

/-- Sets a parameter where it is not set yet. -/
def withParam (k : String) (v : Value) (r : Refusal) : Refusal :=
  { r with params := Assoc.putNew k v r.params }

end Refusal

inductive Failure where
  | refused (r : Refusal)
  | fault (f : Fault)
  deriving Repr

namespace Failure

instance : Inhabited Failure := ⟨.fault .illFormed⟩

def ofCause (c : Cause) : Failure :=
  .refused (Refusal.of c [])

def within (operation : Option String) : Failure → Failure
  | .refused r =>
    .refused (match operation with | some o => r.withOperation o | none => r)
  | .fault f => .fault f

end Failure

/-- A result, or the failure that stands in for it. -/
abbrev Attempt (α : Type) := Except Failure α

def Attempt.within {α : Type} (operation : Option String) (a : Attempt α) : Attempt α :=
  match a with
  | .ok x => .ok x
  | .error f => .error (f.within operation)

def refuse {α : Type} (c : Cause) : Attempt α :=
  .error (Failure.ofCause c)

def stop {α : Type} (f : Fault) : Attempt α :=
  .error (.fault f)

end MetaFed
