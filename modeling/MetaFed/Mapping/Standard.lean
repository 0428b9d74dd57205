import MetaFed.Hierarchy.Standard
import MetaFed.Mapping.Table

/-!
The standard mappings of the relational and the glossary part of the catalog.
-/

namespace MetaFed.MappingTable

namespace Standard

/-- The asset type of records without abstract meaning. -/
def defaultAssetType : String := "main_object"

/-- Types that are deliberately left out. -/
def unsupported : List String := ["Collection"]

/-- Synthetic prefix of the schema type of a database schema. -/
def schemaMark : String := "st"

/-- Synthetic prefix of the schema type of a table. -/
def tableMark : String := "tt"

def optional (backend abstract : String) : SimpleProperty := ⟨backend, abstract, false⟩

/-- The record's name under its own name. -/
def name : SimpleProperty := ⟨"name", "name", true⟩

def displayName : SimpleProperty := ⟨"name", "displayName", true⟩

def description : SimpleProperty := optional "short_description" "description"

def owner : ComplexProperty := ⟨"owner", .referenceName, some "steward", .null⟩

def usage (what : String) : ComplexProperty := ⟨"usage", .literal, none, .text what⟩

def primaryKey : ClassificationMapping :=
  { name := "PrimaryKey", backend := "defined_primary_key" }

def confidentiality : ClassificationMapping :=
  { name := "Confidentiality", backend := "confidentiality_level",
    properties := [optional "confidentiality_level" "level",
      optional "confidentiality_notes" "notes"] }

/-- An end that is followed through a property. -/
def along (assetType navigation : String) : EndMapping :=
  { assetType, navigation := some navigation }

def marked (e : EndMapping) (mark : String) : EndMapping := { e with mark := some mark }

def reference (type : String) (one two : EndMapping) : RelationshipMapping :=
  { type, kind := .reference, one, two }

/-- A relationship between a record and its part with a synthetic prefix. -/
def part (type assetType mark : String) : RelationshipMapping :=
  { type, kind := .self, one := { assetType }, two := { assetType, mark := some mark } }

def databaseSchemas : RelationshipMapping :=
  reference "DataContentForDataSet" (along "database" "database_schemas")
    (along "database_schema" "database")

def schemaType : RelationshipMapping :=
  part "AssetSchemaType" "database_schema" schemaMark

def schemaTables : RelationshipMapping :=
  reference "AttributeForSchema" (marked (along "database_schema" "database_tables") schemaMark)
    (along "database_table" "database_schema")

def tableType : RelationshipMapping :=
  part "SchemaAttributeType" "database_table" tableMark

def tableColumns : RelationshipMapping :=
  reference "AttributeForSchema" (marked (along "database_table" "database_columns") tableMark)
    (along "database_column" "database_table")

def foreignKey : RelationshipMapping :=
  reference "ForeignKey" (along "database_column" "defined_foreign_key_references")
    (along "database_column" "defined_foreign_key_referenced_by")

def assignedTerms (assetType : String) : RelationshipMapping :=
  reference "SemanticAssignment" (along assetType "assigned_to_terms")
    (along "term" "assigned_assets")

def categoryTerms : RelationshipMapping :=
  reference "TermCategorization" (along "category" "terms") (along "term" "parent_category")

def subcategories : RelationshipMapping :=
  reference "CategoryHierarchyLink" (along "category" "subcategories")
    (along "category" "parent_category")

/-- Data classes detected for a column, each by a record of its own. -/
def detectedClasses : RelationshipMapping :=
  { type := "DataClassAssignment", kind := .level,
    one := { along "database_column" "classifies_asset" with
      link := some "detected_classifications" },
    two := { along "data_class" "data_class" with link := some "classifications" },
    levelType := some "classification",
    properties := [optional "confidence_percent" "confidence", optional "status" "status",
      optional "detection_method" "method"] }

/-- Paths from a schema to the names of its ancestors, after the way to the schema. -/
def schemaPaths (way : String) : List String :=
  [way ++ "database.host.name", way ++ "database.name"]

/-- Paths from a table to the names of its ancestors, after the way to the table. -/
def tablePaths (way : String) : List String :=
  schemaPaths (way ++ "database_schema.") ++ [way ++ "database_schema.name"]

def columnPaths : List String :=
  tablePaths "database_table." ++ ["database_table.name"]

def sentinel (abstractType : String) : EntityMapping :=
  { abstractType, assetType := EntityMapping.sentinelType, searchable := false }

def host : EntityMapping :=
  { abstractType := "Host", assetType := "host", simple := [name, description],
    complex := [.qualifiedName, owner] }

def database : EntityMapping :=
  { abstractType := "Database", assetType := "database",
    simple := [name, description, optional "dbms" "type", optional "dbms_version" "version",
      optional "dbms_instance" "instance"],
    complex := [.qualifiedName, owner], relationships := [databaseSchemas],
    contextPaths := some ["host.name"] }

def databaseSchema : EntityMapping :=
  { abstractType := "DeployedDatabaseSchema", assetType := "database_schema",
    simple := [name, description], complex := [.qualifiedName, owner],
    relationships := [databaseSchemas, schemaType], contextPaths := some (schemaPaths "") }

def databaseSchemaType : EntityMapping :=
  { abstractType := "RelationalDBSchemaType", assetType := "database_schema",
    mark := some schemaMark, simple := [displayName],
    complex := [.qualifiedName, usage "relational"],
    relationships := [schemaType, schemaTables], contextPaths := some (schemaPaths "") }

def table : EntityMapping :=
  { abstractType := "RelationalTable", assetType := "database_table",
    simple := [name, description], complex := [.qualifiedName],
    classifications := [confidentiality],
    relationships := [schemaTables, tableType, assignedTerms "database_table"],
    contextPaths := some (tablePaths "") }

def relationalTableType : EntityMapping :=
  { abstractType := "RelationalTableType", assetType := "database_table", mark := some tableMark,
    simple := [displayName], complex := [.qualifiedName, usage "relational table"],
    relationships := [tableType, tableColumns], contextPaths := some (tablePaths "") }

def column : EntityMapping :=
  { abstractType := "RelationalColumn", assetType := "database_column",
    simple := [name, description, optional "position" "position",
      optional "minimum_length" "minimumLength", optional "length" "length",
      optional "fraction" "fraction", optional "allows_null_values" "isNullable",
      optional "unique" "isUnique"],
    complex := [.qualifiedName], classifications := [primaryKey, confidentiality],
    relationships := [tableColumns, foreignKey, assignedTerms "database_column", detectedClasses],
    contextPaths := some columnPaths }

def category : EntityMapping :=
  { abstractType := "GlossaryCategory", assetType := "category",
    simple := [displayName, description], complex := [.qualifiedName],
    relationships := [subcategories, categoryTerms], contextPaths := none }

/-- Glossary terms that are not deprecated. -/
def term : EntityMapping :=
  { abstractType := "GlossaryTerm", assetType := "term",
    simple := [displayName, optional "short_description" "summary",
      optional "long_description" "description", optional "abbreviation" "abbreviation",
      optional "example" "examples", optional "usage" "usage"],
    complex := [.qualifiedName],
    relationships := [categoryTerms, assignedTerms "database_column",
      assignedTerms "database_table"],
    contextPaths := none, typeConditions := [.of "status" .ne (.text "DEPRECATED")] }

def dataClass : EntityMapping :=
  { abstractType := "DataClass", assetType := "data_class",
    simple := [name, description, optional "class_code" "dataClassCode"],
    complex := [.qualifiedName], relationships := [detectedClasses] }

def mappings : List EntityMapping :=
  [sentinel "Asset", sentinel "SchemaType", host, database, databaseSchema, databaseSchemaType,
    table, relationalTableType, column, category, term, dataClass]

end Standard

def standard : MappingTable :=
  ⟨Hierarchy.standard, Standard.mappings, Hierarchy.Standard.baseType, Standard.unsupported⟩

end MetaFed.MappingTable
