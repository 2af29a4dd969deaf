/-
QueryWorkbench.Query.Reader — query documents read into queries.

The readers of items and levels take a reader for the nested queries. `Query.read` reads nested
queries as deep as the document goes, which is all that is needed: a nested query is a part of
the document around it and therefore less deep.
-/
import QueryWorkbench.Query.Basic
import QueryWorkbench.Query.Keys

namespace QueryWorkbench

open Document

variable {Q : Type}

namespace Document

/-- An optional string, absent when it is not there. -/
def optionalText (f : FieldName) (members : Members) : Validated (Option String) :=
  optional f (nullable readText) none members

/-- A string, empty when it is not there. -/
def textOrEmpty (f : FieldName) (members : Members) : Validated String :=
  optional f readText "" members

end Document

namespace Query

/-- The members of a source. -/
def readSource (sub : Reader Q) : Reader (Source Q) := readObject fun m =>
  Source.mk <$> textOrEmpty Keys.table m <*> textOrEmpty Keys.aliasName m
    <*> optionalText Keys.schema m <*> optional Keys.subquery (nullable sub) none m

/-- An entry of the SELECT list. -/
def readField (sub : Reader Q) : Reader (Field Q) := readObject fun m =>
  Field.mk <$> textOrEmpty Keys.id m <*> textOrEmpty Keys.tableId m
    <*> textOrEmpty Keys.column m <*> optionalText Keys.aliasName m
    <*> optional Keys.order readInteger 0 m <*> optionalText Keys.expression m
    <*> optional Keys.aggregate (nullable (readChoice Aggregate.name Aggregate.all)) none m
    <*> optional Keys.subquery (nullable sub) none m

/-- A join. -/
def readJoin (sub : Reader Q) : Reader (Join Q) := readObject fun m =>
  Join.mk <$> textOrEmpty Keys.id m
    <*> optional Keys.kind (readChoice JoinKind.name JoinKind.all) .left m
    <*> required Keys.sourceTable readText m <*> required Keys.sourceAlias readText m
    <*> textOrEmpty Keys.sourceColumn m
    <*> required Keys.targetTable readText m <*> required Keys.targetAlias readText m
    <*> textOrEmpty Keys.targetColumn m <*> optionalText Keys.customCondition m
    <*> optionalText Keys.edge m <*> optional Keys.targetSubquery (nullable sub) none m
    <*> optionalText Keys.targetSubqueryAlias m

/-- A condition. -/
def readCondition (sub : Reader Q) : Reader (Condition Q) := readObject fun m =>
  Condition.mk <$> textOrEmpty Keys.id m <*> textOrEmpty Keys.tableId m
    <*> textOrEmpty Keys.column m
    <*> optional Keys.operator (readChoice Operator.name Operator.all) .equal m
    <*> optional Keys.value readAny .null m
    <*> optional Keys.connective (nullable (readChoice Connective.name Connective.all)) none m
    <*> optional Keys.order readInteger 0 m <*> optional Keys.subquery (nullable sub) none m

/-- An entry of GROUP BY. -/
def readGrouping : Reader Grouping := readObject fun m =>
  Grouping.mk <$> textOrEmpty Keys.id m <*> required Keys.tableId readText m
    <*> required Keys.column readText m <*> optional Keys.order readInteger 0 m

/-- An entry of ORDER BY. -/
def readSorting : Reader Sorting := readObject fun m =>
  Sorting.mk <$> textOrEmpty Keys.id m <*> required Keys.tableId readText m
    <*> required Keys.column readText m
    <*> optional Keys.direction (readChoice Direction.name Direction.all) .ascending m
    <*> optional Keys.order readInteger 0 m

/-- The row limit, read from its members. -/
def readLimitMembers (m : Members) : Validated Limit :=
  Limit.mk <$> required Keys.limit (readBounded 0 none) m
    <*> optional Keys.offset (nullable (readBounded 0 none)) none m

/-- The row limit. -/
def readLimit : Reader Limit := readObject readLimitMembers

/-- A named query. -/
def readCte (sub : Reader Q) : Reader (Cte Q) := readObject fun m =>
  Cte.mk <$> textOrEmpty Keys.id m <*> required Keys.name readText m
    <*> required Keys.query sub m
    <*> optional Keys.columns (nullable (readList readText)) none m
    <*> optional Keys.recursive readTruth false m

/-- A union. -/
def readUnion (sub : Reader Q) : Reader (Union Q) := readObject fun m =>
  Union.mk <$> textOrEmpty Keys.id m
    <*> optional Keys.kind (readChoice UnionKind.name UnionKind.every) .distinct m
    <*> required Keys.query sub m <*> optional Keys.order readInteger 0 m

/-- A clause that is an object around one list. -/
def readClause {α : Type} (f : FieldName) (item : Reader α) : Reader (List α) :=
  readObject fun m => optional f (readList item) [] m

/-- All clauses of one level. -/
def readClauses (sub : Reader Q) (m : Members) : Validated (Clauses Q) :=
  Clauses.mk <$> optional Keys.source (readSource sub) {} m
    <*> optional Keys.select (readClause Keys.fields (readField sub)) [] m
    <*> optional Keys.joins (readList (readJoin sub)) [] m
    <*> optional Keys.filter (nullable (readClause Keys.conditions (readCondition sub))) none m
    <*> optional Keys.groupBy (nullable (readClause Keys.fields readGrouping)) none m
    <*> optional Keys.orderBy (nullable (readClause Keys.fields readSorting)) none m
    <*> optional Keys.limit (nullable readLimit) none m
    <*> optional Keys.ctes (readList (readCte sub)) [] m
    <*> optional Keys.unions (readList (readUnion sub)) [] m

/-- A query whose nested queries go at most `levels` levels deep. -/
def readWithin : (levels : Nat) → Reader Query
  | 0 => fun _ => .fault .notObject
  | levels + 1 => readObject fun m => Query.mk <$> readClauses (readWithin levels) m

/-- A query document of any depth. -/
def read : Reader Query := fun v => readWithin v.depth v

end Query

end QueryWorkbench
