/-
QueryWorkbench.Query.Keys — the field names of query documents, in both spellings.
-/
import QueryWorkbench.Document.Reader

namespace QueryWorkbench.Query.Keys

open QueryWorkbench.Document (FieldName)

def id : FieldName := ⟨"id", "id"⟩
def table : FieldName := ⟨"table", "table"⟩
def aliasName : FieldName := ⟨"alias", "alias"⟩
def schema : FieldName := ⟨"schema", "schema_name"⟩
def subquery : FieldName := ⟨"subquery", "subquery"⟩
def tableId : FieldName := ⟨"tableId", "table_id"⟩
def column : FieldName := ⟨"column", "column"⟩
def order : FieldName := ⟨"order", "order"⟩
def expression : FieldName := ⟨"expression", "expression"⟩
def aggregate : FieldName := ⟨"aggregateFunction", "aggregate_function"⟩
def kind : FieldName := ⟨"type", "type"⟩
def sourceTable : FieldName := ⟨"sourceTableId", "source_table_id"⟩
def sourceAlias : FieldName := ⟨"sourceAlias", "source_alias"⟩
def sourceColumn : FieldName := ⟨"sourceColumn", "source_column"⟩
def targetTable : FieldName := ⟨"targetTableId", "target_table_id"⟩
def targetAlias : FieldName := ⟨"targetAlias", "target_alias"⟩
def targetColumn : FieldName := ⟨"targetColumn", "target_column"⟩
def customCondition : FieldName := ⟨"customCondition", "custom_condition"⟩
def edge : FieldName := ⟨"edgeId", "edge_id"⟩
def targetSubquery : FieldName := ⟨"targetSubquery", "target_subquery"⟩
def targetSubqueryAlias : FieldName := ⟨"targetSubqueryAlias", "target_subquery_alias"⟩
def operator : FieldName := ⟨"operator", "operator"⟩
def value : FieldName := ⟨"value", "value"⟩
def connective : FieldName := ⟨"logicalOperator", "logical_operator"⟩
def direction : FieldName := ⟨"direction", "direction"⟩
def limit : FieldName := ⟨"limit", "limit"⟩
def offset : FieldName := ⟨"offset", "offset"⟩
def name : FieldName := ⟨"name", "name"⟩
def query : FieldName := ⟨"query", "query"⟩
def columns : FieldName := ⟨"columns", "columns"⟩
def recursive : FieldName := ⟨"recursive", "recursive"⟩
def fields : FieldName := ⟨"fields", "fields"⟩
def conditions : FieldName := ⟨"conditions", "conditions"⟩
def source : FieldName := ⟨"from", "from_"⟩
def select : FieldName := ⟨"select", "select"⟩
def joins : FieldName := ⟨"joins", "joins"⟩
def filter : FieldName := ⟨"where", "where"⟩
def groupBy : FieldName := ⟨"groupBy", "group_by"⟩
def orderBy : FieldName := ⟨"orderBy", "order_by"⟩
def ctes : FieldName := ⟨"ctes", "ctes"⟩
def unions : FieldName := ⟨"unions", "unions"⟩

end QueryWorkbench.Query.Keys
