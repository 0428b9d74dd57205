import MetaFed.Hierarchy

/-!
The standard abstract types: assets, schemas and glossaries, the relationships between them, and
the classifications that entities can carry.
-/

namespace MetaFed.Hierarchy

namespace Standard

/-- The root of all entity types. -/
def rootType : String := "OpenMetadataRoot"

/-- The supertype of every entity with a qualified name. -/
def baseType : String := "Referenceable"

def entity (name : String) (supertype : Option String) (attributes : List String) : TypeDef :=
  { name, category := .entity, supertype, attributes }

def relationship (name endOne endTwo : String) (attributes : List String) : TypeDef :=
  { name, category := .relationship, attributes, endTypes := some (endOne, endTwo) }

def classification (name : String) (attributes validFor : List String) : TypeDef :=
  { name, category := .classification, attributes, validEntityTypes := validFor }

def entities : List TypeDef := [
  entity rootType none [],
  entity baseType (some rootType) ["qualifiedName", "additionalProperties"],
  entity "Asset" (some baseType) ["name", "description", "owner"],
  entity "Infrastructure" (some "Asset") [],
  entity "ITInfrastructure" (some "Infrastructure") [],
  entity "Host" (some "ITInfrastructure") [],
  entity "DataStore" (some "Asset") [],
  entity "Database" (some "DataStore") ["type", "version", "instance"],
  entity "DataSet" (some "Asset") [],
  entity "DeployedDatabaseSchema" (some "DataSet") [],
  entity "SchemaElement" (some baseType) [],
  entity "SchemaType" (some "SchemaElement") ["displayName", "author", "usage"],
  entity "ComplexSchemaType" (some "SchemaType") [],
  entity "RelationalDBSchemaType" (some "ComplexSchemaType") [],
  entity "RelationalTableType" (some "ComplexSchemaType") [],
  entity "SchemaAttribute" (some "SchemaElement") ["name", "position", "description"],
  entity "RelationalTable" (some "SchemaAttribute") [],
  entity "TabularColumn" (some "SchemaAttribute") [],
  entity "RelationalColumn" (some "TabularColumn")
    ["minimumLength", "length", "fraction", "isNullable", "isUnique"],
  entity "Glossary" (some baseType) ["displayName", "description"],
  entity "GlossaryCategory" (some baseType) ["displayName", "description"],
  entity "GlossaryTerm" (some baseType)
    ["displayName", "summary", "description", "examples", "abbreviation", "usage"],
  entity "DataClass" (some baseType) ["name", "description", "dataClassCode"],
  entity "Collection" (some baseType) ["name", "description"]]

def relationships : List TypeDef := [
  relationship "DataContentForDataSet" "Asset" "DataSet" [],
  relationship "AssetSchemaType" "Asset" "SchemaType" [],
  relationship "AttributeForSchema" "ComplexSchemaType" "SchemaAttribute" ["position"],
  relationship "SchemaAttributeType" "SchemaAttribute" "SchemaType" [],
  relationship "ForeignKey" "RelationalColumn" "RelationalColumn"
    ["name", "description", "confidence"],
  relationship "SemanticAssignment" baseType "GlossaryTerm" ["description", "status"],
  relationship "TermCategorization" "GlossaryCategory" "GlossaryTerm" ["description"],
  relationship "CategoryHierarchyLink" "GlossaryCategory" "GlossaryCategory" [],
  relationship "DataClassAssignment" baseType "DataClass" ["confidence", "status", "method"]]

def classifications : List TypeDef := [
  classification "PrimaryKey" ["name"] ["RelationalColumn"],
  classification "Confidentiality" ["level", "notes"] [baseType]]

def defs : List TypeDef := entities ++ relationships ++ classifications

end Standard

def standard : Hierarchy := ⟨Standard.defs⟩

end MetaFed.Hierarchy
