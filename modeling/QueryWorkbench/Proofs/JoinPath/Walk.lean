/-
QueryWorkbench.Proofs.JoinPath.Walk — walks over a schema graph.

`Adjacent` says that an edge joins two tables, in either direction, and `Walk` counts the edges
of a walk. A walk may pass a table any number of times; it is what the paths of a search are
compared with. `Chain` is the other view: the hops themselves, each starting where the one before
it has ended. A chain is a walk (`Chain.walk`), and every table on it was reached on the way
(`Chain.exists_walk_of_mem`).
-/
import Mathlib.Data.Nat.Find
import QueryWorkbench.JoinPath.Basic

namespace QueryWorkbench

/-! ## Hops and neighbours -/

/-- An edge joins two tables, in either direction. -/
def Adjacent (edges : List Edge) (a b : String) : Prop :=
  ∃ e ∈ edges, (e.source = a ∧ e.target = b) ∨ (e.target = a ∧ e.source = b)

/-- The hops from a table are the edges that start there, as written, and those that end there,
turned round. -/
theorem mem_hopsFrom {edges : List Edge} {a : String} {h : Hop} :
    h ∈ hopsFrom edges a ↔
      ∃ e ∈ edges, (e.source = a ∧ h = e.forward) ∨ (e.target = a ∧ h = e.backward) := by
  simp only [hopsFrom, List.mem_flatMap, Edge.hopsFrom, List.mem_append, List.mem_ite_nil_right,
    List.mem_singleton]

/-- Two tables are neighbours exactly when a hop leads from the one to the other. -/
theorem adjacent_iff_exists_hop {edges : List Edge} {a b : String} :
    Adjacent edges a b ↔ ∃ h ∈ hopsFrom edges a, h.target = b := by
  constructor
  · rintro ⟨e, he, ⟨rfl, rfl⟩ | ⟨rfl, rfl⟩⟩
    · exact ⟨e.forward, mem_hopsFrom.mpr ⟨e, he, Or.inl ⟨rfl, rfl⟩⟩, rfl⟩
    · exact ⟨e.backward, mem_hopsFrom.mpr ⟨e, he, Or.inr ⟨rfl, rfl⟩⟩, rfl⟩
  · rintro ⟨h, hh, rfl⟩
    obtain ⟨e, he, ⟨rfl, rfl⟩ | ⟨rfl, rfl⟩⟩ := mem_hopsFrom.mp hh
    · exact ⟨e, he, Or.inl ⟨rfl, rfl⟩⟩
    · exact ⟨e, he, Or.inr ⟨rfl, rfl⟩⟩

/-! ## Walks -/

/-- A table is reached from `a` by walking a number of edges. -/
inductive Walk (edges : List Edge) (a : String) : Nat → String → Prop
  | start : Walk edges a 0 a
  | step {n : Nat} {b c : String} : Walk edges a n b → Adjacent edges b c → Walk edges a (n + 1) c

/-- A walk of no edge stays where it is. -/
theorem Walk.eq_of_zero {edges : List Edge} {a b : String} (w : Walk edges a 0 b) : b = a := by
  cases w; rfl

/-- The last edge of a walk. -/
theorem Walk.last {edges : List Edge} {a c : String} {n : Nat} (w : Walk edges a (n + 1) c) :
    ∃ b, Walk edges a n b ∧ Adjacent edges b c := by
  cases w with
  | step w h => exact ⟨_, w, h⟩

/-- Where there is a walk there is a shortest one. -/
theorem Walk.exists_shortest {edges : List Edge} {a b : String} {n : Nat} (w : Walk edges a n b) :
    ∃ m ≤ n, Walk edges a m b ∧ ∀ k < m, ¬ Walk edges a k b := by
  classical
  have ex : ∃ m, Walk edges a m b := ⟨n, w⟩
  exact ⟨Nat.find ex, Nat.find_min' ex w, Nat.find_spec ex, fun k hk => Nat.find_min ex hk⟩

/-! ## Chains of hops -/

/-- Hops that follow one another from `a` to a table. -/
inductive Chain (edges : List Edge) (a : String) : List Hop → String → Prop
  | nil : Chain edges a [] a
  | snoc {hops : List Hop} {b : String} {h : Hop} :
      Chain edges a hops b → h ∈ hopsFrom edges b → Chain edges a (hops ++ [h]) h.target

/-- A chain is a walk of as many edges as it has hops. -/
theorem Chain.walk {edges : List Edge} {a b : String} {hops : List Hop}
    (c : Chain edges a hops b) : Walk edges a hops.length b := by
  induction c with
  | nil => exact .start
  | snoc _ hh ih =>
    rw [List.length_append, List.length_singleton]
    exact .step ih (adjacent_iff_exists_hop.mpr ⟨_, hh, rfl⟩)

/-- Every table on a chain is reached by a walk that is no longer than the chain. -/
theorem Chain.exists_walk_of_mem {edges : List Edge} {a b x : String} {hops : List Hop}
    (c : Chain edges a hops b) (hx : x ∈ a :: hops.map (·.target)) :
    ∃ n ≤ hops.length, Walk edges a n x := by
  induction c with
  | nil =>
    obtain rfl : x = a := by simpa using hx
    exact ⟨0, Nat.le_refl 0, .start⟩
  | @snoc hops b h hc hh ih =>
    have split : x ∈ a :: hops.map (·.target) ∨ x = h.target := by simpa [or_assoc] using hx
    rcases split with hx | rfl
    · obtain ⟨n, hn, w⟩ := ih hx
      exact ⟨n, by simp; omega, w⟩
    · exact ⟨_, Nat.le_refl _, (Chain.snoc hc hh).walk⟩

/-- A chain ends where its last hop leads. -/
theorem Chain.eq_or_mem {edges : List Edge} {a b : String} {hops : List Hop}
    (c : Chain edges a hops b) : b = a ∨ ∃ h ∈ hops, h.target = b := by
  cases c with
  | nil => exact Or.inl rfl
  | snoc => exact Or.inr ⟨_, List.mem_append_right _ (List.mem_singleton_self _), rfl⟩

/-- The same, read from the start: hops that follow one another from a table on. -/
def Linked (edges : List Edge) : String → List Hop → Prop
  | _, [] => True
  | a, h :: rest => h ∈ hopsFrom edges a ∧ Linked edges h.target rest

theorem Chain.linked_append {edges : List Edge} {a b : String} {hops : List Hop}
    (c : Chain edges a hops b) : ∀ {rest : List Hop}, Linked edges b rest →
    Linked edges a (hops ++ rest) := by
  induction c with
  | nil => exact id
  | snoc _ hh ih =>
    intro rest linked
    rw [List.append_assoc, List.singleton_append]
    exact ih ⟨hh, linked⟩

theorem Chain.linked {edges : List Edge} {a b : String} {hops : List Hop}
    (c : Chain edges a hops b) : Linked edges a hops := by
  simpa using c.linked_append (show Linked edges b [] from trivial)

end QueryWorkbench
