/-
QueryWorkbench.Proofs.Highlight.Selection — what is selected of a schema graph.

A selection is closed: its tables are ids of the graph, and both ends of a selected edge are
selected (`ends_selected`). Which edges a join with columns selects is said in directions: its
tables follow an edge in one of two directions, and so do its columns. The selection does not ask
that the two directions be the same (`mem_edges_select_iff`), so an edge between the same tables
with the column names exchanged is selected too (`not_only_aligned_leads`).

## How the proof goes

There are three ways to choose edges, and each goes with its own way to choose tables: without joins
(`select_of_no_joins`), with joins that edges match, and with joins that none matches
(`select_of_joins`). In two of them the edges are those between the chosen tables. In the third an
edge matches a join, and then its ends match the tables of this join in the sense in which tables
are chosen (`ends_joined_of_matching`). For the second theorem the two comparisons of an edge with a
join are turned into directions, one by one (`tablesAgree_iff`, `columnsAgree_iff`).

## The side conditions

* For closed selections the ends of the edges are ids, as they are in a graph.
* For the edges of joins every join has its columns, since one without them is compared by its
  tables alone; and some edge is aligned with a join, for if none matched, the edges would be chosen
  without the joins.
-/
import QueryWorkbench.Highlight.Selection
import QueryWorkbench.Proofs.Highlight.Matcher

namespace QueryWorkbench.Highlight

variable {report : Report} {ids : List String} {edges : List Edge}

/-! ## Tables and edges -/

@[simp] theorem mem_sortedOnce {item : String} {items : List String} :
    item ∈ sortedOnce items ↔ item ∈ items := by
  rw [sortedOnce, List.mem_mergeSort, List.mem_eraseDups]

theorem mem_edgesWithin {e : Edge} {tables : List String} :
    e ∈ edgesWithin edges tables ↔ e ∈ edges ∧ e.source ∈ tables ∧ e.target ∈ tables := by
  simp [edgesWithin]

/-- The ids of the tables that a report mentions. -/
def mentioned (report : Report) (ids : List String) : List String :=
  (report.tables.filterMap (matchId? ids)).eraseDups

theorem mem_of_mentioned {id : String} (h : id ∈ mentioned report ids) : id ∈ ids := by
  obtain ⟨name, -, chosen⟩ := List.mem_filterMap.mp (List.mem_eraseDups.mp h)
  exact mem_of_mem_candidates (mem_candidates_of_matchId? chosen)

/-- The ids of the tables that a report joins. -/
def joined (report : Report) (ids : List String) : List String :=
  report.joins.flatMap fun j => related ids j.source ++ related ids j.target

theorem mem_joined {id : String} :
    id ∈ joined report ids ↔ id ∈ ids ∧ ∃ j ∈ report.joins,
      tablesMatch id j.source = true ∨ tablesMatch id j.target = true := by
  simp only [joined, List.mem_flatMap, List.mem_append, mem_related, ← and_or_left]
  grind

/-- The edges that match one of the joins of a report. -/
def matching (report : Report) (ids : List String) (edges : List Edge) : List Edge :=
  edges.filter fun e => report.joins.any fun j => edgeMatches (mentioned report ids) j e

theorem mem_matching {e : Edge} :
    e ∈ matching report ids edges ↔
      e ∈ edges ∧ ∃ j ∈ report.joins, edgeMatches (mentioned report ids) j e = true := by
  rw [matching, List.mem_filter, List.any_eq_true]

/-- What is selected without joins. -/
theorem select_of_no_joins (ids : List String) (edges : List Edge) (none : report.joins = []) :
    ∃ tables, (∀ t ∈ tables, t ∈ mentioned report ids) ∧ select report ids edges =
      ⟨sortedOnce tables, sortedOnce ((edgesWithin edges tables).map (·.id))⟩ := by
  refine ⟨_, fun t ht => ?_, if_pos (List.isEmpty_iff.mpr none)⟩
  split at ht
  · exact ht
  · obtain ⟨e, he, ht⟩ := List.mem_flatMap.mp ht
    obtain ⟨-, source, target⟩ := mem_edgesWithin.mp he
    simp only [List.mem_cons, List.not_mem_nil, or_false] at ht
    rcases ht with rfl | rfl
    · exact source
    · exact target

/-- What is selected for joins. -/
theorem select_of_joins (some : report.joins ≠ []) :
    select report ids edges =
      ⟨sortedOnce (joined report ids), sortedOnce
        ((if (matching report ids edges).isEmpty then edgesWithin edges (joined report ids)
          else matching report ids edges).map (·.id))⟩ :=
  if_neg (mt List.isEmpty_iff.mp some)

/-- As soon as one edge matches a join, the selected edges are those that do. -/
theorem mem_edges_select_of_matching {e : Edge} (he : e ∈ matching report ids edges) {id : String} :
    id ∈ (select report ids edges).edges ↔ ∃ f ∈ matching report ids edges, f.id = id := by
  obtain ⟨-, j, hj, -⟩ := mem_matching.mp he
  have some : ¬ (matching report ids edges).isEmpty = true := fun none =>
    List.ne_nil_of_mem he (List.isEmpty_iff.mp none)
  rw [select_of_joins (List.ne_nil_of_mem hj), if_neg some, mem_sortedOnce, List.mem_map]

/-! ## Selections are closed -/

/-- The ends of an edge that matches a join are joined, if they are ids. -/
theorem ends_joined_of_matching {e : Edge} (he : e ∈ matching report ids edges)
    (known : e.source ∈ ids ∧ e.target ∈ ids) :
    e.source ∈ joined report ids ∧ e.target ∈ joined report ids := by
  obtain ⟨-, j, hj, matches_⟩ := mem_matching.mp he
  rw [edgeMatches, Bool.and_eq_true, tablesAgree] at matches_
  rw [mem_joined, mem_joined]
  rcases Bool.or_eq_true_iff.mp matches_.1 with forth | back
  · obtain ⟨source, target⟩ := Bool.and_eq_true_iff.mp forth
    exact ⟨⟨known.1, j, hj, Or.inl source⟩, known.2, j, hj, Or.inr target⟩
  · obtain ⟨source, target⟩ := Bool.and_eq_true_iff.mp back
    exact ⟨⟨known.1, j, hj, Or.inr source⟩, known.2, j, hj, Or.inl target⟩

/-- In a graph whose edges lead between known tables, every selected table is a known one, and every
selected edge id is that of an edge with both its ends selected. -/
theorem ends_selected (known : ∀ e ∈ edges, e.source ∈ ids ∧ e.target ∈ ids) :
    (∀ t ∈ (select report ids edges).tables, t ∈ ids) ∧
    ∀ id ∈ (select report ids edges).edges, ∃ e ∈ edges, e.id = id ∧
      e.source ∈ (select report ids edges).tables ∧
      e.target ∈ (select report ids edges).tables := by
  by_cases none : report.joins = []
  · obtain ⟨tables, within, selected⟩ := select_of_no_joins ids edges none
    simp only [selected, mem_sortedOnce]
    refine ⟨fun t ht => mem_of_mentioned (within t ht), fun id hid => ?_⟩
    obtain ⟨e, he, same⟩ := List.mem_map.mp hid
    obtain ⟨mem, source, target⟩ := mem_edgesWithin.mp he
    exact ⟨e, mem, same, source, target⟩
  · simp only [select_of_joins none, mem_sortedOnce]
    refine ⟨fun t ht => (mem_joined.mp ht).1, fun id hid => ?_⟩
    obtain ⟨e, he, same⟩ := List.mem_map.mp hid
    split at he
    · obtain ⟨mem, source, target⟩ := mem_edgesWithin.mp he
      exact ⟨e, mem, same, source, target⟩
    · have mem := (mem_matching.mp he).1
      exact ⟨e, mem, same, ends_joined_of_matching he (known e mem)⟩

/-- Orders, archived ones too, and customers. -/
def salesTables : List String := ["archive.orders", "sales.orders", "sales.customers"]

/-- All orders belong to customers. -/
def salesEdges : List Edge :=
  [⟨"1", "sales.orders", "sales.customers", "customer_id", "id", none⟩,
    ⟨"2", "archive.orders", "sales.customers", "customer_id", "id", none⟩]

/-- Orders joined with customers, both without a schema. -/
def ordersJoined : Report where
  tables := ["orders", "customers"]
  joins := [⟨"orders", "customers", none, some "customer_id", some "id"⟩]

theorem ends_selected_sales :
    (∀ e ∈ salesEdges, e.source ∈ salesTables ∧ e.target ∈ salesTables) ∧
    (∀ t ∈ (select ordersJoined salesTables salesEdges).tables, t ∈ salesTables) ∧
    ∀ id ∈ (select ordersJoined salesTables salesEdges).edges, ∃ e ∈ salesEdges, e.id = id ∧
      e.source ∈ (select ordersJoined salesTables salesEdges).tables ∧
      e.target ∈ (select ordersJoined salesTables salesEdges).tables := by
  have known : ∀ e ∈ salesEdges, e.source ∈ salesTables ∧ e.target ∈ salesTables := by decide
  exact ⟨known, ends_selected known⟩

/-! ## Directions -/

/-- The same tables and columns with the sides exchanged. -/
def turned (j : JoinedPair) : JoinedPair :=
  ⟨j.target, j.source, j.condition, j.targetColumn, j.sourceColumn⟩

/-- The tables of a join match those of an edge, side by side. -/
def TablesFollow (e : Edge) (j : JoinedPair) : Prop :=
  tablesMatch e.source j.source = true ∧ tablesMatch e.target j.target = true

/-- The columns of a join are those of an edge in any case, side by side. -/
def ColumnsFollow (e : Edge) (j : JoinedPair) : Prop :=
  some (Text.lower e.sourceColumn) = j.sourceColumn.map Text.lower ∧
    some (Text.lower e.targetColumn) = j.targetColumn.map Text.lower

/-- In one of the two directions both the tables and the columns of a join are those of an edge. -/
def Aligned (e : Edge) (j : JoinedPair) : Prop :=
  (TablesFollow e j ∧ ColumnsFollow e j) ∨ (TablesFollow e (turned j) ∧ ColumnsFollow e (turned j))

/-- The tables of a join are those of an edge in one direction, the columns in the other one. -/
def Crossed (e : Edge) (j : JoinedPair) : Prop :=
  (TablesFollow e j ∧ ColumnsFollow e (turned j)) ∨ (TablesFollow e (turned j) ∧ ColumnsFollow e j)

/-- Both columns of a join are there. -/
def HasColumns (j : JoinedPair) : Prop :=
  ∃ a b, j.sourceColumn = some a ∧ j.targetColumn = some b ∧ a ≠ "" ∧ b ≠ ""

theorem tablesAgree_iff {e : Edge} {j : JoinedPair} :
    tablesAgree e j = true ↔ TablesFollow e j ∨ TablesFollow e (turned j) := by
  simp only [tablesAgree, Bool.or_eq_true, Bool.and_eq_true]
  rfl

theorem columnsAgree_iff {e : Edge} {j : JoinedPair} {a b : String}
    (source : j.sourceColumn = some a) (target : j.targetColumn = some b) :
    columnsAgree e a b = true ↔ ColumnsFollow e j ∨ ColumnsFollow e (turned j) := by
  simp [columnsAgree, ColumnsFollow, turned, source, target]

/-- A join with both columns matches an edge whose tables it has, in any direction, and whose columns
it has, in any direction. -/
theorem edgeMatches_iff {tables : List String} {e : Edge} {j : JoinedPair} (columns : HasColumns j) :
    edgeMatches tables j e = true ↔ Aligned e j ∨ Crossed e j := by
  obtain ⟨a, b, source, target, source_ne, target_ne⟩ := columns
  have known : edgeMatches tables j e = (tablesAgree e j && columnsAgree e a b) := by
    simp [edgeMatches, source, target, Option.filter, source_ne, target_ne]
  rw [known, Bool.and_eq_true, tablesAgree_iff, columnsAgree_iff source target, Aligned, Crossed]
  constructor
  · rintro ⟨tables | tables, columns | columns⟩
    · exact Or.inl (Or.inl ⟨tables, columns⟩)
    · exact Or.inr (Or.inl ⟨tables, columns⟩)
    · exact Or.inr (Or.inr ⟨tables, columns⟩)
    · exact Or.inl (Or.inr ⟨tables, columns⟩)
  · rintro ((⟨tables, columns⟩ | ⟨tables, columns⟩) | ⟨tables, columns⟩ | ⟨tables, columns⟩)
    · exact ⟨Or.inl tables, Or.inl columns⟩
    · exact ⟨Or.inr tables, Or.inr columns⟩
    · exact ⟨Or.inl tables, Or.inr columns⟩
    · exact ⟨Or.inr tables, Or.inl columns⟩

/-- If an edge is aligned with a join, and all joins have their columns, the selected edges are those
that are aligned with a join and those that cross one. So the aligned ones alone are selected exactly
if every crossing edge goes by the id of an aligned one. -/
theorem mem_edges_select_iff (columns : ∀ j ∈ report.joins, HasColumns j)
    (aligned : ∃ e ∈ edges, ∃ j ∈ report.joins, Aligned e j) :
    (∀ id, id ∈ (select report ids edges).edges ↔
      ∃ e ∈ edges, e.id = id ∧ ∃ j ∈ report.joins, Aligned e j ∨ Crossed e j) ∧
    ((∀ id, id ∈ (select report ids edges).edges ↔
        ∃ e ∈ edges, e.id = id ∧ ∃ j ∈ report.joins, Aligned e j) ↔
      ∀ e ∈ edges, (∃ j ∈ report.joins, Crossed e j) →
        ∃ f ∈ edges, f.id = e.id ∧ ∃ j ∈ report.joins, Aligned f j) := by
  have matching_iff {e : Edge} : e ∈ matching report ids edges ↔
      e ∈ edges ∧ ∃ j ∈ report.joins, Aligned e j ∨ Crossed e j := by
    rw [mem_matching]
    exact and_congr_right fun _ => exists_congr fun j => and_congr_right fun hj =>
      edgeMatches_iff (columns j hj)
  obtain ⟨first, hf, j, hj, both⟩ := aligned
  have selected (id : String) : id ∈ (select report ids edges).edges ↔
      ∃ e ∈ edges, e.id = id ∧ ∃ j ∈ report.joins, Aligned e j ∨ Crossed e j := by
    rw [mem_edges_select_of_matching (matching_iff.mpr ⟨hf, j, hj, Or.inl both⟩)]
    exact exists_congr fun e => by rw [matching_iff, and_assoc, and_comm (a := e.id = id)]
  refine ⟨selected, fun only e he crossed => ?_, fun named id => ?_⟩
  · obtain ⟨j, hj, crossed⟩ := crossed
    exact (only e.id).mp ((selected e.id).mpr ⟨e, he, rfl, j, hj, Or.inr crossed⟩)
  · rw [selected]
    constructor
    · rintro ⟨e, he, rfl, j, hj, aligned | crossed⟩
      · exact ⟨e, he, rfl, j, hj, aligned⟩
      · exact named e he ⟨j, hj, crossed⟩
    · rintro ⟨e, he, rfl, j, hj, aligned⟩
      exact ⟨e, he, rfl, j, hj, Or.inl aligned⟩

/-- The employee who leads a department, and the department that an employee leads. -/
def leadEdges : List Edge :=
  [⟨"1", "departments", "employees", "lead", "id", none⟩,
    ⟨"2", "employees", "departments", "lead", "id", none⟩]

/-- Employees joined with the departments that they lead. -/
def leadsJoined : Report where
  tables := ["employees", "departments"]
  joins := [⟨"employees", "departments", none, some "id", some "lead"⟩]

theorem hasColumns_leadsJoined : ∀ j ∈ leadsJoined.joins, HasColumns j := by
  intro j hj
  obtain rfl := List.mem_singleton.mp hj
  exact ⟨"id", "lead", rfl, rfl, by decide, by decide⟩

theorem aligned_leads : ∃ e ∈ leadEdges, ∃ j ∈ leadsJoined.joins, Aligned e j := by
  simp only [Aligned, TablesFollow, ColumnsFollow, turned]
  decide +kernel

theorem mem_edges_select_iff_leads :
    (∀ j ∈ leadsJoined.joins, HasColumns j) ∧
    (∃ e ∈ leadEdges, ∃ j ∈ leadsJoined.joins, Aligned e j) ∧
    ∀ id, id ∈ (select leadsJoined ["employees", "departments"] leadEdges).edges ↔
      ∃ e ∈ leadEdges, e.id = id ∧ ∃ j ∈ leadsJoined.joins, Aligned e j ∨ Crossed e j :=
  ⟨hasColumns_leadsJoined, aligned_leads,
    (mem_edges_select_iff hasColumns_leadsJoined aligned_leads).1⟩

/-- The join is about the leaders of departments, and yet the other edge is selected too. -/
theorem not_only_aligned_leads :
    (∀ j ∈ leadsJoined.joins, HasColumns j) ∧
    (∃ e ∈ leadEdges, ∃ j ∈ leadsJoined.joins, Aligned e j) ∧
    "2" ∈ (select leadsJoined ["employees", "departments"] leadEdges).edges ∧
    ¬ ∃ e ∈ leadEdges, e.id = "2" ∧ ∃ j ∈ leadsJoined.joins, Aligned e j := by
  have both : matching leadsJoined ["employees", "departments"] leadEdges = leadEdges := by
    decide +kernel
  have first : leadEdges.head (by decide) ∈
      matching leadsJoined ["employees", "departments"] leadEdges := by
    rw [both]
    exact List.head_mem _
  refine ⟨hasColumns_leadsJoined, aligned_leads, ?_, ?_⟩
  · rw [mem_edges_select_of_matching first, both]
    decide
  · simp only [Aligned, TablesFollow, ColumnsFollow, turned]
    decide +kernel

end QueryWorkbench.Highlight
