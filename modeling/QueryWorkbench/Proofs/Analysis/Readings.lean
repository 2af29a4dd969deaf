/-
QueryWorkbench.Proofs.Analysis.Readings — what the names in join conditions are read as.

A name in a condition is looked up among the tables that FROM and the joins bring in. Each of them
is entered under its alias and under its bare name, so the last table that goes by the name counts
(`standsFor`): an alias is lost to a later table whose bare name it is. The analysis of generated
SQL reports the joins under these readings (`joins_analyze_generate`), and under the tables they
were made for where no table goes by the bare name of a later one (`standsFor_of_apart`).
-/
import Mathlib.Data.List.Find
import QueryWorkbench.Proofs.Analysis.RoundTrip

namespace QueryWorkbench.Sql

open Analysis Text

/-! ## Readings -/

/-- Whether a table under an alias goes by a name, in any case: by its alias or by its bare name. -/
def goesBy (name : String) (e : String × String) : Bool :=
  sameName e.2 name || sameName (bareName e.1) name

/-- What a name stands for among tables with their aliases: the last of them that goes by it, or
the name itself if there is none. -/
def standsFor (tables : List (String × String)) (name : String) : String :=
  ((tables.reverse.find? (goesBy name)).map (·.1)).getD name

/-- Tables with their aliases none of which is the alias or the bare name of a later one, in any
case. -/
def Apart (tables : List (String × String)) : Prop :=
  tables.Pairwise fun e later => goesBy e.2 later = false

/-- An alias stands for its own table where nothing later goes by it. -/
theorem standsFor_of_apart {tables : List (String × String)} (apart : Apart tables)
    {e : String × String} (he : e ∈ tables) : standsFor tables e.2 = e.1 := by
  obtain ⟨before, after, rfl⟩ := List.append_of_mem he
  have later : after.reverse.find? (goesBy e.2) = none := by
    have none_after := (List.pairwise_cons.mp (List.pairwise_append.mp apart).2.1).1
    refine List.find?_eq_none.mpr fun x hx => ?_
    rw [none_after x (List.mem_reverse.mp hx)]
    exact Bool.false_ne_true
  have own : goesBy e.2 e = true := by simp [goesBy, sameName]
  rw [standsFor, List.reverse_append, List.reverse_cons, List.append_assoc, List.find?_append, later,
    Option.none_or, List.singleton_append, List.find?_cons_of_pos own]
  rfl

/-! ## Pairs of tables -/

variable {Q : Type}

/-- The pair that the equality of a join relates when its sides are read as two tables. -/
def pairOf (source target : String) (j : Join Q) : JoinedPair :=
  ⟨source, target,
    some (source ++ "." ++ j.sourceColumn ++ " = " ++ target ++ "." ++ j.targetColumn),
    some j.sourceColumn, some j.targetColumn⟩

/-- The pair of the two tables that a join is made for. -/
def statedPair (j : Join Q) : JoinedPair := pairOf j.sourceTable j.targetTable j

/-- The pair of the two tables that the aliases of a join stand for. -/
def readPair (tables : List (String × String)) (j : Join Q) : JoinedPair :=
  pairOf (standsFor tables j.sourceAlias) (standsFor tables j.targetAlias) j

/-- The tables that FROM and the joins of a level bring in, with their aliases. -/
def broughtUnder (c : Clauses Q) : List (String × String) :=
  (c.source.table, c.source.aliasName) ::
    (JoinGroup.ofJoins c.joins).map fun g => (g.first.targetTable, g.first.targetAlias)

section

variable {c : Clauses Q} (named : Named c)
include named

theorem named_of_brought {e : String × String} (he : e ∈ broughtUnder c) :
    IsTable e.1 ∧ IsName e.2 := by
  rcases List.mem_cons.mp he with rfl | he
  · exact named.source
  · obtain ⟨g, hg, rfl⟩ := List.mem_map.mp he
    obtain ⟨-, -, -, table, aliasName, -⟩ :=
      named.joins g.first (JoinGroup.exists_mem_ofJoins.mp ⟨g, hg, List.mem_cons_self ..⟩)
    exact ⟨table, aliasName⟩

/-- A name without a schema is resolved to what it stands for. -/
theorem resolve_eq_standsFor {f : Findings}
    (found : f.aliases =
      ((broughtUnder c).map fun e => entrant e.1 e.2).foldl Entrant.enter []) (name : String) :
    f.resolve none name = standsFor (broughtUnder c) name := by
  have goes : ∀ e ∈ (broughtUnder c).reverse,
      (Entrant.goesBy (lower name) ∘ fun e => entrant e.1 e.2) e = goesBy name e := by
    intro e he
    obtain ⟨table, aliasName⟩ := named_of_brought named (List.mem_reverse.mp he)
    obtain ⟨-, -, bare, own, -⟩ := entrant_of_isTable table aliasName
    rw [Function.comp_apply, Entrant.goesBy, bare, own, goesBy, sameName, sameName]
  have full : ∀ e ∈ (broughtUnder c).reverse.find? (goesBy name),
      (Entrant.full ∘ fun e => entrant e.1 e.2) e = e.1 := by
    intro e he
    obtain ⟨table, aliasName⟩ :=
      named_of_brought named (List.mem_reverse.mp (List.mem_of_find?_eq_some he))
    exact (entrant_of_isTable table aliasName).2.1
  rw [Findings.resolve, found, get?_foldl_enter_eq, ← List.map_reverse, List.find?_map,
    List.find?_congr goes, Assoc.get?, Option.or_none, Option.map_map, Option.map_congr full,
    standsFor]
  rfl

/-- The equality of a join relates what its aliases stand for, unless that is one table. -/
theorem relate_equation_eq {f : Findings} (undefined : f.defined = [])
    (found : f.aliases =
      ((broughtUnder c).map fun e => entrant e.1 e.2).foldl Entrant.enter []) (j : Join Q) :
    f.relate (equation j) =
      Option.guard (fun p => !sameName p.source p.target) (readPair (broughtUnder c) j) := by
  have source := resolve_eq_standsFor named found j.sourceAlias
  have target := resolve_eq_standsFor named found j.targetAlias
  exact relate_equation_of_resolve undefined source target

end

/-! ## Analysing generated text -/

/-- Generated SQL is analysed without a warning, and its joins are reported under what their
aliases stand for: those of a group one after the other, each two tables once, and no table with
itself. -/
theorem joins_analyze_generate (d : Dialect) (layout : Layout) {q : Query} {limits : Limits}
    (flat : Flat q.clauses) (named : Named q.clauses)
    (short : ((generate d layout q).length : Int) ≤ limits.maxLength)
    (some : 1 ≤ limits.maxMatches)
    (enough : ((JoinGroup.ofJoins q.clauses.joins).length : Int) ≤ limits.maxMatches) :
    ∃ report, analyze limits (generate d layout q) = (report, []) ∧
      report.joins =
        ((((JoinGroup.ofJoins q.clauses.joins).flatMap JoinGroup.members).map
          (readPair (broughtUnder q.clauses))).filter
            fun p => !sameName p.source p.target).eraseDupsBy sameTables := by
  obtain ⟨t, source, joins, analysed⟩ := exists_analyzed_text d layout flat named short some enough
  have aliases : t.findings.aliases =
      ((broughtUnder q.clauses).map fun e => entrant e.1 e.2).foldl Entrant.enter [] := by
    show t.entrants.foldl Entrant.enter [] = _
    rw [SelectText.entrants, source, joins, broughtUnder, List.map_cons, List.map_map, List.map_map]
    rfl
  refine ⟨_, analysed, ?_⟩
  rw [joins, filterMap_relate_equations fun j _ => relate_equation_eq named rfl aliases j]

end QueryWorkbench.Sql
