/-
QueryWorkbench.Proofs.Draft.ManualJoin — joining by several pairs of columns at once.

A join by several pairs of columns has one condition that spells their equalities out, and its text
is that of joins by one pair each (`written_pairs`). So a draft is written, in both layouts, as if
these had been added in its place (`generate_addManualJoin`), also where they go into a group of
joins that is there already.

## How the proof goes

Joins of the same tables are written as one JOIN whose conditions are put one after the other with
AND between them. What is compared is therefore not a condition but the text of all conditions with
an AND in front of each (`Sql.anded`), which is additive: the condition of several pairs and the
conditions of single pairs come to the same text there. Where the pairs go, into a group of their
own or behind the members of another one, is the matter of `Sql/SplitJoin.lean` (`generate_split`),
which needs no more than this text and that the parts agree with the join in their tables, aliases,
kind and nested query (`Join.Part`).

## The side conditions

* At least one pair is given. Without pairs the action is refused.
* The kind is one of the names of join kinds, for any other text is refused.

The draft, the workbench and the nested query are arbitrary, and nothing is asked of the columns. A
column that spells AND or a quote is written inside its quotes in both texts.
-/
import QueryWorkbench.Proofs.Draft.Retargeting
import QueryWorkbench.Proofs.Sql.SplitJoin

namespace QueryWorkbench.Draft

open Sql

/-- A draft with joins added at the end. -/
def pushJoins (d : Draft) (joins : List (Join Query)) : Draft :=
  { d with clauses := { d.clauses with joins := d.clauses.joins ++ joins } }

/-! ## The condition of several pairs -/

/-- Texts with AND between them have one AND less than with AND in front of each. -/
theorem toList_and_intercalate {texts : List String} (nonempty : texts ≠ []) :
    " AND ".toList ++ (" AND ".intercalate texts).toList =
      texts.flatMap fun t => " AND ".toList ++ t.toList := by
  obtain ⟨first, rest, rfl⟩ := List.exists_cons_of_ne_nil nonempty
  rw [String.toList_intercalate, List.map_cons, intercalate_cons, List.flatMap_map,
    List.flatMap_cons, List.append_assoc]

variable {w : Workbench} {columns : List (String × String)}

theorem toList_and_pairsCondition (sourceAlias targetAlias : String) (nonempty : columns ≠ []) :
    " AND ".toList ++ (pairsCondition w sourceAlias targetAlias columns).toList =
      columns.flatMap fun c =>
        " AND ".toList ++ (equality w.dialect sourceAlias targetAlias c).toList := by
  have texts : columns.map (equality w.dialect sourceAlias targetAlias) ≠ [] := by
    simpa using nonempty
  have all := toList_and_intercalate texts
  rwa [List.flatMap_map] at all

/-- A condition of pairs is a condition: it has text. -/
theorem given_pairsCondition (sourceAlias targetAlias : String) (nonempty : columns ≠ []) :
    given (some (pairsCondition w sourceAlias targetAlias columns)) =
      some (pairsCondition w sourceAlias targetAlias columns) := by
  refine Option.filter_eq_some_iff.mpr ⟨rfl, decide_eq_true fun empty => ?_⟩
  have all := toList_and_pairsCondition (w := w) sourceAlias targetAlias nonempty
  obtain ⟨first, rest, rfl⟩ := List.exists_cons_of_ne_nil nonempty
  rw [empty, List.flatMap_cons, List.append_assoc] at all
  simpa [equality] using List.append_cancel_left all

/-- A join by pairs of columns, its own pair the first of them, is written as their equalities. -/
theorem written_pairs {j : Join Query} {first : String × String} {more : List (String × String)}
    (own : (j.sourceColumn, j.targetColumn) = first)
    (condition : j.condition = if more.isEmpty then none
      else some (pairsCondition w j.sourceAlias j.targetAlias (first :: more))) :
    anded w.dialect [joinCondition j] = (first :: more).flatMap fun c =>
      " AND ".toList ++ (equality w.dialect j.sourceAlias j.targetAlias c).toList := by
  subst own
  cases more with
  | nil =>
    have part : j.Part (j.sourceColumn, j.targetColumn) j :=
      ⟨rfl, rfl, rfl, rfl, rfl, rfl, rfl, condition, rfl, rfl⟩
    exact anded_parts (.cons part .nil)
  | cons next more =>
    rw [← toList_and_pairsCondition _ _ (List.cons_ne_nil _ _), joinCondition, condition,
      List.isEmpty_cons, if_neg Bool.false_ne_true,
      given_pairsCondition _ _ (List.cons_ne_nil _ _)]
    simp [anded, Phrase.chars, Phrase.text, Token.text]

/-- Joining by pairs of columns adds a join of the tables that were given, and it is written as the
equalities of the pairs. -/
theorem exists_pushJoin_addManualJoin (w : Workbench) (d : Draft) (target source : String)
    (nonempty : columns ≠ []) (kind : JoinKind) (subquery : Option Query)
    (subqueryAlias : Option String) :
    ∃ j : Join Query,
      d.addManualJoin w target source columns (.str kind.name) subquery subqueryAlias =
        (d.advance.pushJoin j).answered (.join (some j)) ∧
      (j.targetTable = target ∧ j.sourceTable = source ∧ j.kind = kind ∧ j.subquery = subquery ∧
        j.subqueryAlias = subqueryAlias) ∧
      anded w.dialect [joinCondition j] = columns.flatMap fun c =>
        " AND ".toList ++ (equality w.dialect j.sourceAlias j.targetAlias c).toList := by
  obtain ⟨first, more, rfl⟩ := List.exists_cons_of_ne_nil nonempty
  have known := named_joinKind_eq_ok_iff.mpr (rfl : Json.str kind.name = .str kind.name)
  simp only [addManualJoin, known]
  exact ⟨_, rfl, ⟨rfl, rfl, rfl, rfl, rfl⟩, written_pairs rfl rfl⟩

/-! ## Joins by single pairs in its place -/

/-- Joining by any pairs of columns, several or one, adds a join `j` of the tables that were given.
The SQL of the draft, in either layout, is that of the same draft with joins by one pair each in the
place of `j`: their tables and aliases, the kind and the nested query are those of `j`, and they have
no condition of their own. -/
theorem generate_addManualJoin (w : Workbench) (d : Draft) (target source : String)
    {columns : List (String × String)} (nonempty : columns ≠ []) (kind : JoinKind)
    (subquery : Option Query) (subqueryAlias : Option String) :
    ∃ (final : Draft) (j : Join Query),
      d.perform w (.addManualJoin target source columns (.str kind.name) subquery subqueryAlias) =
        final.answered (.join (some j)) ∧
      final.clauses = { d.clauses with joins := d.clauses.joins ++ [j] } ∧
      (j.targetTable = target ∧ j.sourceTable = source ∧ j.kind = kind ∧ j.subquery = subquery ∧
        j.subqueryAlias = subqueryAlias) ∧
      ∀ parts, List.Forall₂ j.Part columns parts →
        (∀ layout, generate w.dialect layout (.mk final.clauses) =
          generate w.dialect layout (.mk (d.pushJoins parts).clauses)) ∧
        ∀ env pretty, final.sql w env pretty = (d.pushJoins parts).sql w env pretty := by
  obtain ⟨j, added, same, written⟩ :=
    exists_pushJoin_addManualJoin w d target source nonempty kind subquery subqueryAlias
  refine ⟨d.advance.pushJoin j, j, added, rfl, same, fun parts each => ?_⟩
  have nonempty_parts : parts ≠ [] := by
    rintro rfl
    exact nonempty (List.forall₂_nil_right_iff.mp each)
  have texts (layout : Layout) : generate w.dialect layout (.mk (d.advance.pushJoin j).clauses) =
      generate w.dialect layout (.mk (d.pushJoins parts).clauses) :=
    generate_split d.clauses nonempty_parts (Join.Part.forall_mem each)
      (written.trans (anded_parts each).symm)
  refine ⟨texts, fun env pretty => ?_⟩
  -- Both drafts have the source of the first one, so the text is empty for both or for none.
  rw [sql, sql, Generator.choose_name]
  cases GeneratorSettings.read env with
  | error f => rfl
  | ok settings =>
    simp only [Except.map, bind, Except.bind, Generator.text, texts]
    rfl

/-- A workbench without edges, as joining by hand needs none. -/
def byHand : Workbench := ⟨{}, 4, .mysql⟩

/-- Orders with their items, joined by hand. -/
def itemizedOrders : Draft :=
  run byHand {} [.setBaseTable "orders",
    .addManualJoin "items" "orders" [("id", "order_id")] (.str "INNER") none none]

/-- The pairs of columns that relate orders to sales. -/
def salesPairs : List (String × String) := [("shop", "sold`at"), ("day", "day")]

/-- Joining the sales, as a nested query. -/
def joinSales : Action :=
  .addManualJoin "sales" "orders" salesPairs (.str "LEFT")
    (some (.mk { source := { table := "sales", aliasName := "s" } })) (some "sold")

theorem generate_addManualJoin_joinSales :
    salesPairs ≠ [] ∧ ∃ (final : Draft) (j : Join Query) (parts : List (Join Query)),
      itemizedOrders.perform byHand joinSales = final.answered (.join (some j)) ∧
      List.Forall₂ j.Part salesPairs parts ∧
      generate .mysql .compact (.mk final.clauses) =
        generate .mysql .compact (.mk (itemizedOrders.pushJoins parts).clauses) ∧
      generate .mysql .compact (.mk final.clauses) =
        "SELECT * FROM `orders` AS ord INNER JOIN `items` AS ite ON ord.`id` = ite.`order_id` " ++
          "LEFT JOIN (SELECT * FROM `sales` AS s) AS sold " ++
          "ON ord.`shop` = sold.`sold``at` AND ord.`day` = sold.`day`" := by
  have nonempty : salesPairs ≠ [] := List.cons_ne_nil _ _
  obtain ⟨final, j, added, -, -, alike⟩ := generate_addManualJoin byHand itemizedOrders "sales"
    "orders" nonempty .left (some (.mk { source := { table := "sales", aliasName := "s" } }))
    (some "sold")
  have each : List.Forall₂ j.Part salesPairs
      [{ j with sourceColumn := "shop", targetColumn := "sold`at", condition := none },
        { j with sourceColumn := "day", targetColumn := "day", condition := none }] :=
    .cons ⟨rfl, rfl, rfl, rfl, rfl, rfl, rfl, rfl, rfl, rfl⟩
      (.cons ⟨rfl, rfl, rfl, rfl, rfl, rfl, rfl, rfl, rfl, rfl⟩ .nil)
  refine ⟨nonempty, final, j, _, added, each, (alike _ each).1 .compact, ?_⟩
  obtain rfl : (itemizedOrders.perform byHand joinSales).draft = final :=
    congrArg Performed.draft added
  decide +kernel

end QueryWorkbench.Draft
