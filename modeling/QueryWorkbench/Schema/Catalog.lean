/-
QueryWorkbench.Schema.Catalog — what a database reports about its schema.
-/
import QueryWorkbench.Schema.Document

namespace QueryWorkbench.Schema

open Document

/-- A table as reported. -/
structure TableEntry where
  name : String
  schema : Option String := none
  columns : List Column := []
  primaryKeys : List String := []
deriving DecidableEq

/-- A view as reported, with its definition. -/
structure ViewEntry where
  name : String
  schema : Option String := none
  definition : String := ""
  columns : List Column := []
deriving DecidableEq

/-- One pair of columns of a foreign key. -/
structure KeyEntry where
  name : String
  source : String
  sourceColumn : String
  target : String
  targetColumn : String
deriving DecidableEq

/-- Everything reported. -/
structure Catalog where
  tables : List TableEntry := []
  views : List ViewEntry := []
  keys : List KeyEntry := []
deriving DecidableEq

namespace Keys

def primaryKeys : FieldName := ⟨"primaryKeys", "primary_keys"⟩
def definition : FieldName := ⟨"definition", "definition"⟩
def keySource : FieldName := ⟨"fromTable", "from_table"⟩
def keyTarget : FieldName := ⟨"toTable", "to_table"⟩
def tables : FieldName := ⟨"tables", "tables"⟩
def views : FieldName := ⟨"views", "views"⟩
def foreignKeys : FieldName := ⟨"foreignKeys", "foreign_keys"⟩

end Keys

/-- A table entry. -/
def readTableEntry : Reader TableEntry := readObject fun m =>
  TableEntry.mk <$> required Keys.name readText m
    <*> optional Keys.schema (Document.nullable readText) none m
    <*> optional Keys.columns (readList readColumn) [] m
    <*> optional Keys.primaryKeys (readList readText) [] m

/-- A view entry. -/
def readViewEntry : Reader ViewEntry := readObject fun m =>
  ViewEntry.mk <$> required Keys.name readText m
    <*> optional Keys.schema (Document.nullable readText) none m
    <*> optional Keys.definition readText "" m
    <*> optional Keys.columns (readList readColumn) [] m

/-- A foreign key entry. -/
def readKeyEntry : Reader KeyEntry := readObject fun m =>
  KeyEntry.mk <$> required Keys.name readText m <*> required Keys.keySource readText m
    <*> required Keys.sourceColumn readText m <*> required Keys.keyTarget readText m
    <*> required Keys.targetColumn readText m

/-- A catalog. -/
def readCatalog : Reader Catalog := readObject fun m =>
  Catalog.mk <$> optional Keys.tables (readList readTableEntry) [] m
    <*> optional Keys.views (readList readViewEntry) [] m
    <*> optional Keys.foreignKeys (readList readKeyEntry) [] m

end QueryWorkbench.Schema
