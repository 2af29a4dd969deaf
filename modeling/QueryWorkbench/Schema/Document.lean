/-
QueryWorkbench.Schema.Document — schema graphs as documents, read and written.
-/
import QueryWorkbench.Document.Reader
import QueryWorkbench.Schema.Graph

namespace QueryWorkbench.Schema

open Document

namespace Keys

def id : FieldName := ⟨"id", "id"⟩
def label : FieldName := ⟨"label", "label"⟩
def kind : FieldName := ⟨"type", "type"⟩
def schema : FieldName := ⟨"schema", "schema_name"⟩
def columns : FieldName := ⟨"columns", "columns"⟩
def name : FieldName := ⟨"name", "name"⟩
def nullable : FieldName := ⟨"nullable", "nullable"⟩
def isPrimaryKey : FieldName := ⟨"isPrimaryKey", "is_primary_key"⟩
def isForeignKey : FieldName := ⟨"isForeignKey", "is_foreign_key"⟩
def defaultValue : FieldName := ⟨"defaultValue", "default_value"⟩
def comment : FieldName := ⟨"comment", "comment"⟩
def source : FieldName := ⟨"from", "from_table"⟩
def target : FieldName := ⟨"to", "to_table"⟩
def sourceColumn : FieldName := ⟨"fromColumn", "from_column"⟩
def targetColumn : FieldName := ⟨"toColumn", "to_column"⟩
def nodes : FieldName := ⟨"nodes", "nodes"⟩
def edges : FieldName := ⟨"edges", "edges"⟩

end Keys

/-- A column. -/
def readColumn : Reader Column := readObject fun m =>
  Column.mk <$> required Keys.name readText m <*> optional Keys.kind readText "" m
    <*> optional Keys.nullable readTruth true m <*> optional Keys.isPrimaryKey readTruth false m
    <*> optional Keys.isForeignKey readTruth false m
    <*> optional Keys.defaultValue (Document.nullable readText) none m
    <*> optional Keys.comment (Document.nullable readText) none m

/-- A node. -/
def readNode : Reader Node := readObject fun m =>
  Node.mk <$> required Keys.id readText m <*> required Keys.label readText m
    <*> optional Keys.kind (readChoice NodeKind.name NodeKind.all) .table m
    <*> optional Keys.schema (Document.nullable readText) none m
    <*> optional Keys.columns (readList readColumn) [] m

/-- An edge. -/
def readEdge : Reader Edge := readObject fun m =>
  Edge.mk <$> required Keys.id readText m <*> required Keys.source readText m
    <*> required Keys.target readText m <*> required Keys.sourceColumn readText m
    <*> required Keys.targetColumn readText m
    <*> optional Keys.label (Document.nullable readText) none m

/-- A schema graph. -/
def readGraph : Reader SchemaGraph := readObject fun m =>
  SchemaGraph.mk <$> optional Keys.nodes (readList readNode) [] m
    <*> optional Keys.edges (readList readEdge) [] m

/-- A column as a document. -/
def writeColumn (c : Column) : Json := .obj [
  (Keys.name.camel, .str c.name), (Keys.kind.camel, .str c.type),
  (Keys.nullable.camel, .bool c.nullable), (Keys.isPrimaryKey.camel, .bool c.isPrimaryKey),
  (Keys.isForeignKey.camel, .bool c.isForeignKey),
  (Keys.defaultValue.camel, .ofOption c.defaultValue), (Keys.comment.camel, .ofOption c.comment)]

/-- A node as a document. -/
def writeNode (n : Node) : Json := .obj [
  (Keys.id.camel, .str n.id), (Keys.label.camel, .str n.label),
  (Keys.kind.camel, .str n.kind.name), (Keys.schema.camel, .ofOption n.schema),
  (Keys.columns.camel, .arr (n.columns.map writeColumn))]

/-- An edge as a document. -/
def writeEdge (e : Edge) : Json := .obj [
  (Keys.id.camel, .str e.id), (Keys.source.camel, .str e.source),
  (Keys.target.camel, .str e.target), (Keys.sourceColumn.camel, .str e.sourceColumn),
  (Keys.targetColumn.camel, .str e.targetColumn), (Keys.label.camel, .ofOption e.label)]

/-- A schema graph as a document. -/
def writeGraph (g : SchemaGraph) : Json := .obj [
  (Keys.nodes.camel, .arr (g.nodes.map writeNode)),
  (Keys.edges.camel, .arr (g.edges.map writeEdge))]

end QueryWorkbench.Schema
