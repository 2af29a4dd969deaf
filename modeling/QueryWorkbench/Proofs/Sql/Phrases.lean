/-
QueryWorkbench.Proofs.Sql.Phrases — what a clause makes of the phrases it is written with.

Much of what is proved about generated SQL is proved phrase by phrase: that a phrase is harmless to
the analysis, that formatting leaves it as it is, that stripping leaves another phrase of it, that an
alias stands in it. Each clause is gone through here, once for all of these, in the order in which
the generator writes them. A change of one clause of the generator is a change of one section.

## How a clause is gone through

`R` is any relation of phrases. Between two clauses written with related columns, related nested
queries and the same words, the fragments are related one by one and have the same gaps
(`rel_selectFragments` and so on). What stands for nested queries is what differs between the two.
A property `P` of phrases is a relation that does not look at its second argument, so that the
lemmas about properties (`forall_selectItems` and so on) are the relational ones on the diagonal.
Which alias tokens a clause has is an equivalence and no consequence of these, so it has a lemma of
its own in each section (`mem_tokens_selectFragments` and so on).

## The hypotheses

A clause asks of `R` what its own words and signs need and nothing else: `comma` where it has items
between commas, `call` where a function may stand around a column. WHERE, GROUP BY and ORDER BY say
nothing about their keyword (`RelClause`), because formatting treats it in another way than what
comes behind it.
-/
import Mathlib.Data.List.Forall2
import QueryWorkbench.Proofs.Query.Emptied
import QueryWorkbench.Sql.Generate

namespace QueryWorkbench.Sql

/-! ## Tokens of fragments -/

/-- The tokens of some fragments, from left to right. -/
def tokens (fs : List Fragment) : List Token := fs.flatMap Fragment.phrase

@[simp] theorem tokens_nil : tokens [] = [] := rfl

@[simp] theorem tokens_append (fs gs : List Fragment) : tokens (fs ++ gs) = tokens fs ++ tokens gs :=
  List.flatMap_append

@[simp] theorem tokens_row (gap : Gap) (ps : List Phrase) : tokens (row gap ps) = ps.flatten := by
  cases ps with
  | nil => rfl
  | cons p rest => simp [row, tokens, List.flatMap_map, List.flatMap_id']

theorem tokens_rows (gap : Gap) (items : List (List Phrase)) :
    tokens (items.flatMap (row gap)) = items.flatten.flatten := by
  induction items with
  | nil => rfl
  | cons item rest ih => simp [ih]

theorem mem_tokens_flatMap {α : Type} {items : List α} {f : α → List Fragment} {t : Token} :
    t ∈ tokens (items.flatMap f) ↔ ∃ x ∈ items, t ∈ tokens (f x) := by
  simp [tokens, List.flatMap_assoc, List.mem_flatMap]

theorem mem_flatten_map {α : Type} {items : List α} {f : α → List Phrase} {t : Token} :
    t ∈ (items.map f).flatten.flatten ↔ ∃ x ∈ items, t ∈ (f x).flatten := by
  induction items with
  | nil => simp
  | cons x rest ih => simp [-List.mem_flatten, ih]

theorem map_phrase_row (gap : Gap) (ps : List Phrase) : (row gap ps).map Fragment.phrase = ps := by
  cases ps with
  | nil => rfl
  | cons p rest =>
    rw [row, List.map_cons, List.map_map]
    exact congrArg (p :: ·) (List.map_id' rest)

theorem map_phrase_rows (gap : Gap) (items : List (List Phrase)) :
    (items.flatMap (row gap)).map Fragment.phrase = items.flatten := by
  induction items with
  | nil => rfl
  | cons item rest ih =>
    rw [List.flatMap_cons, List.map_append, map_phrase_row, ih, List.flatten_cons]

/-- Whether a token is an alias, used or declared. -/
def Token.isAlias : Token → Bool
  | owner _ => true
  | declared _ => true
  | _ => false

section

variable {t : Token} (isAlias : t.isAlias = true)
include isAlias

theorem ne_word (s : String) : t ≠ .word s := by
  rintro rfl
  cases isAlias

theorem ne_name (s : String) : t ≠ .name s := by
  rintro rfl
  cases isAlias

theorem ne_raw (s : String) : t ≠ .raw s := by
  rintro rfl
  cases isAlias

theorem ne_value (v : Json) : t ≠ .value v := by
  rintro rfl
  cases isAlias

end

/-! ## Related fragments -/

/-- On the diagonal a relation that does not look at its second argument is a property. -/
theorem forall₂_diagonal {α : Type} {P : α → Prop} {l : List α} :
    List.Forall₂ (fun a _ => P a) l l ↔ ∀ a ∈ l, P a := List.forall₂_same

/-- What is made of the same items in two ways is related item by item. -/
theorem forall₂_map_same {α β γ : Type} {S : β → γ → Prop} {f : α → β} {g : α → γ} {l : List α} :
    List.Forall₂ S (l.map f) (l.map g) ↔ ∀ a ∈ l, S (f a) (g a) := by
  rw [List.forall₂_map_left_iff, List.forall₂_map_right_iff, List.forall₂_same]

section

variable {R : Phrase → Phrase → Prop} {P : Phrase → Prop} {gap : Gap} {ps qs : List Phrase}
  {fs gs : List Fragment} {items others : List (List Phrase)}

/-- Fragments with the same gaps and related phrases. -/
abbrev RelFragments (R : Phrase → Phrase → Prop) : List Fragment → List Fragment → Prop :=
  List.Forall₂ fun f g => f.gap = g.gap ∧ R f.phrase g.phrase

theorem rel_map_fragment (h : List.Forall₂ R ps qs) :
    RelFragments R (ps.map (⟨gap, ·⟩)) (qs.map (⟨gap, ·⟩)) := by
  rw [RelFragments, List.forall₂_map_left_iff, List.forall₂_map_right_iff]
  exact h.imp fun p q one => ⟨rfl, one⟩

theorem rel_row (h : List.Forall₂ R ps qs) : RelFragments R (row gap ps) (row gap qs) := by
  cases h with
  | nil => exact .nil
  | cons first more => exact .cons ⟨rfl, first⟩ (rel_map_fragment more)

theorem rel_rows (h : List.Forall₂ (List.Forall₂ R) items others) :
    RelFragments R (items.flatMap (row gap)) (others.flatMap (row gap)) :=
  List.rel_flatMap h fun _ _ one => rel_row one

/-- On the diagonal a property of phrases holds of each. -/
theorem relFragments_same :
    RelFragments (fun p _ => P p) fs fs ↔ ∀ p ∈ fs.map Fragment.phrase, P p := by
  rw [RelFragments, List.forall₂_same, List.forall_mem_map]
  simp

/-- A token in none of the phrases is none of the tokens. -/
theorem not_mem_tokens {t : Token} (h : RelFragments (fun p _ => t ∉ p) fs fs) : t ∉ tokens fs := by
  rw [relFragments_same, List.forall_mem_map] at h
  rw [tokens, List.mem_flatMap]
  exact fun ⟨f, hf, there⟩ => h f hf there

/-- Two clauses with the same keyword: both are absent, or related phrases, at least one, come behind
the keyword. -/
inductive RelClause (R : Phrase → Phrase → Prop) (k : String) : List Fragment → List Fragment → Prop
  | absent : RelClause R k [] []
  | present {fs gs : List Fragment} : fs ≠ [] → RelFragments R fs gs →
      RelClause R k (⟨.line, [.word k]⟩ :: fs) (⟨.line, [.word k]⟩ :: gs)

namespace RelClause

variable {k : String}

theorem row (some : ps ≠ []) (h : List.Forall₂ R ps qs) :
    RelClause R k (row .line ([.word k] :: ps)) (row .line ([.word k] :: qs)) :=
  .present (by simpa using some) (rel_map_fragment h)

theorem fragments (h : RelClause R k fs gs) (word : R [.word k] [.word k]) : RelFragments R fs gs := by
  cases h with
  | absent => exact .nil
  | present _ more => exact .cons ⟨rfl, word⟩ more

/-- On the diagonal a clause is its keyword and phrases with a property. -/
theorem phrases (h : RelClause (fun p _ => P p) k fs fs) :
    fs.map Fragment.phrase = [] ∨ ∃ more, fs.map Fragment.phrase = [.word k] :: more ∧ more ≠ [] ∧
      ∀ p ∈ more, P p := by
  cases h with
  | absent => exact Or.inl rfl
  | present some more =>
    exact Or.inr ⟨_, List.map_cons, by simpa using some, relFragments_same.mp more⟩

end RelClause

/-! ## Commas -/

theorem endWithComma_cons_cons (p q : Phrase) (rest : List Phrase) :
    endWithComma (p :: q :: rest) = p :: endWithComma (q :: rest) := rfl

theorem withCommas_cons_cons (item next : List Phrase) (rest : List (List Phrase)) :
    withCommas (item :: next :: rest) = endWithComma item :: withCommas (next :: rest) := rfl

theorem rel_endWithComma (comma : ∀ p q, R p q → R (p ++ [.word ","]) (q ++ [.word ","]))
    (h : List.Forall₂ R ps qs) : List.Forall₂ R (endWithComma ps) (endWithComma qs) := by
  induction h with
  | nil => exact .nil
  | cons first more ih =>
    cases more with
    | nil => exact .cons (comma _ _ first) .nil
    | cons next more => exact .cons first ih

theorem rel_withCommas (comma : ∀ p q, R p q → R (p ++ [.word ","]) (q ++ [.word ","]))
    (h : List.Forall₂ (List.Forall₂ R) items others) :
    List.Forall₂ (List.Forall₂ R) (withCommas items) (withCommas others) := by
  induction h with
  | nil => exact .nil
  | cons first more ih =>
    cases more with
    | nil => exact .cons first .nil
    | cons next more => exact .cons (rel_endWithComma comma first) ih

theorem forall_withCommas (comma : ∀ p, P p → P (p ++ [.word ","]))
    (each : ∀ item ∈ items, ∀ p ∈ item, P p) : ∀ p ∈ (withCommas items).flatten, P p := by
  have same : List.Forall₂ (List.Forall₂ fun p _ => P p) items items :=
    List.forall₂_same.mpr fun item hitem => List.forall₂_same.mpr (each item hitem)
  have all := rel_withCommas (R := fun p _ => P p) (fun p _ => comma p) same
  exact forall₂_diagonal.mp (List.rel_flatten all)

theorem flatten_withCommas_ne_nil (some : items ≠ []) (each : ∀ item ∈ items, item ≠ []) :
    (withCommas items).flatten ≠ [] := by
  obtain ⟨item, rest, rfl⟩ := List.exists_cons_of_ne_nil some
  obtain ⟨p, ps, rfl⟩ := List.exists_cons_of_ne_nil (each item (List.mem_cons_self ..))
  cases rest with
  | nil => exact List.cons_ne_nil _ _
  | cons next rest =>
    rw [withCommas_cons_cons, List.flatten_cons]
    refine List.append_ne_nil_of_left_ne_nil ?_ _
    cases ps with
    | nil => exact List.cons_ne_nil _ _
    | cons q ps => exact List.cons_ne_nil _ _

/-- A keyword with items between commas behind it. -/
theorem RelClause.listed {k : String} (comma : ∀ p q, R p q → R (p ++ [.word ","]) (q ++ [.word ","]))
    (some : items ≠ []) (each : ∀ item ∈ items, item ≠ [] ∧ ∀ p ∈ item, R p p) :
    RelClause R k (Sql.row .line ([.word k] :: (withCommas items).flatten))
      (Sql.row .line ([.word k] :: (withCommas items).flatten)) := by
  have same : List.Forall₂ (List.Forall₂ R) items items :=
    List.forall₂_same.mpr fun item hitem => List.forall₂_same.mpr (each item hitem).2
  exact .row (flatten_withCommas_ne_nil some fun item hitem => (each item hitem).1)
    (List.rel_flatten (rel_withCommas comma same))

section

variable {t : Token} (other : t ≠ .word ",")
include other

/-- Commas add no other token. -/
theorem mem_endWithComma : t ∈ (endWithComma ps).flatten ↔ t ∈ ps.flatten := by
  induction ps with
  | nil => rfl
  | cons p rest ih =>
    cases rest with
    | nil => simp [endWithComma, other]
    | cons q rest => rw [endWithComma_cons_cons, List.flatten_cons, List.mem_append, ih,
        List.flatten_cons (l := p), List.mem_append]

theorem mem_withCommas : t ∈ (withCommas items).flatten.flatten ↔ t ∈ items.flatten.flatten := by
  induction items with
  | nil => rfl
  | cons item rest ih =>
    cases rest with
    | nil => simp [withCommas]
    | cons next rest => rw [withCommas_cons_cons, List.flatten_cons, List.flatten_append,
        List.mem_append, mem_endWithComma other, ih, List.flatten_cons (l := item),
        List.flatten_append, List.mem_append]

end

theorem mem_tokens_listed {t : Token} (isAlias : t.isAlias = true) {k : String} :
    t ∈ tokens (row .line ([.word k] :: (withCommas items).flatten)) ↔ t ∈ items.flatten.flatten := by
  rw [tokens_row, List.flatten_cons, List.mem_append, List.mem_singleton,
    or_iff_right (ne_word isAlias k), mem_withCommas (ne_word isAlias _)]

/-! ## Separators -/

theorem rel_intercalate {sep : List Phrase} (between : List.Forall₂ R sep sep)
    (h : List.Forall₂ (List.Forall₂ R) items others) :
    List.Forall₂ R (sep.intercalate items) (sep.intercalate others) := by
  induction h with
  | nil => exact .nil
  | cons first more ih =>
    cases more with
    | nil => simpa using first
    | cons next more =>
      rw [List.intercalate_cons_cons, List.intercalate_cons_cons]
      exact List.rel_append (List.rel_append first between) ih

theorem forall_mem_intercalate {α : Type} {p : α → Prop} {sep : List α} {items : List (List α)}
    (between : ∀ x ∈ sep, p x) (inside : ∀ item ∈ items, ∀ x ∈ item, p x) :
    ∀ x ∈ sep.intercalate items, p x := by
  induction items with
  | nil => simp
  | cons item rest ih =>
    have more := ih fun other ho => inside other (List.mem_cons_of_mem _ ho)
    have first := inside item (List.mem_cons_self ..)
    cases rest with
    | nil => simpa using first
    | cons next rest =>
      rw [List.intercalate_cons_cons, List.forall_mem_append, List.forall_mem_append]
      exact ⟨⟨first, between⟩, more⟩

end

/-! ## Sorted items -/

theorem mem_sortedBy {α : Type} {order : α → Int} {items : List α} {x : α} :
    x ∈ sortedBy order items ↔ x ∈ items := List.mem_mergeSort

theorem sortedBy_eq_nil {α : Type} {order : α → Int} {items : List α}
    (none : sortedBy order items = []) : items = [] := by
  have length := congrArg List.length none
  rw [sortedBy, List.length_mergeSort] at length
  exact List.eq_nil_of_length_eq_zero length

theorem sortedBy_map {α β : Type} {order : α → Int} {order' : β → Int} {m : α → β}
    {items : List α} (same : ∀ x ∈ items, order' (m x) = order x) :
    sortedBy order' (items.map m) = (sortedBy order items).map m := by
  rw [sortedBy, sortedBy, List.map_mergeSort]
  intro x hx y hy
  rw [same x hx, same y hy]

/-- Items with the same numbers, one by one, are sorted alike. -/
theorem forall₂_sortedBy {α β : Type} {S : α → β → Prop} {order : α → Int} {order' : β → Int}
    {items : List α} {others : List β} (same : ∀ a b, S a b → order' b = order a)
    (h : List.Forall₂ S items others) :
    List.Forall₂ S (sortedBy order items) (sortedBy order' others) := by
  obtain ⟨length, related⟩ := List.forall₂_iff_zip.mp h
  have pairs : ∀ z ∈ items.zip others, S z.1 z.2 := fun z hz => related hz
  have left : sortedBy order ((items.zip others).map Prod.fst) =
      (sortedBy (fun z => order z.1) (items.zip others)).map Prod.fst := sortedBy_map fun _ _ => rfl
  have right : sortedBy order' ((items.zip others).map Prod.snd) =
      (sortedBy (fun z => order z.1) (items.zip others)).map Prod.snd :=
    sortedBy_map fun z hz => same z.1 z.2 (pairs z hz)
  rw [List.map_fst_zip (Nat.le_of_eq length)] at left
  rw [List.map_snd_zip (Nat.le_of_eq length.symm)] at right
  rw [left, right]
  exact forall₂_map_same.mpr fun z hz => pairs z (mem_sortedBy.mp hz)

/-! ## Names, columns and nested queries -/

section

variable {T : Token → Prop} {R : Phrase → Phrase → Prop} {t : Token}
  {aliases : List (String × String)}

theorem forall_mem_tablePhrase {table : String} {schema : Option String} (dot : T (.word "."))
    (name : ∀ s ∈ Dialect.nameParts table schema, T (.name s)) : ∀ t ∈ tablePhrase table schema, T t :=
  forall_mem_intercalate (List.forall_mem_singleton.mpr dot)
    (List.forall_mem_map.mpr fun s hs => List.forall_mem_singleton.mpr (name s hs))

theorem forall_mem_columnRef {table column : String}
    (owner : aliasOr aliases table ≠ "" → T (.owner (aliasOr aliases table)))
    (star : T (.word "*")) (name : T (.name column)) : ∀ t ∈ columnRef aliases table column, T t := by
  have shown : T (if column = "*" then .word "*" else .name column) := by
    split
    · exact star
    · exact name
  rw [columnRef]
  split
  · exact List.forall_mem_singleton.mpr shown
  · exact List.forall_mem_cons.mpr ⟨owner ‹_›, List.forall_mem_singleton.mpr shown⟩

/-- Nested queries, on both sides or on none. -/
abbrev RelNested (R : Phrase → Phrase → Prop) : Option String → Option String → Prop :=
  Option.Rel fun q r => R (nested q) (nested r)

theorem relNested_map {P : Type} {f g : P → String} {subquery : Option P}
    (each : ∀ q ∈ subquery, R (nested (f q)) (nested (g q))) :
    RelNested R (subquery.map f) (subquery.map g) := by
  cases subquery with
  | none => exact .none
  | some q => exact .some (each q rfl)

theorem relNested_of_none {subquery : Option String} (none : subquery = none) :
    RelNested R subquery subquery := by
  rw [none]
  exact .none

/-- A nested query, or the table in its place. -/
theorem rel_tableOrNested {q r : Option String} {table : String} {schema : Option String}
    (inner : RelNested R q r) (named : R (tablePhrase table schema) (tablePhrase table schema)) :
    R (tableOrNested q table schema) (tableOrNested r table schema) := by
  cases inner with
  | none => exact named
  | some one => exact one

theorem rel_underAlias {p q : Phrase} {t : Token} (shown : R p q) (as_ : R [.word "AS"] [.word "AS"])
    (name : R [t] [t]) : List.Forall₂ R (underAlias p t) (underAlias q t) :=
  .cons shown (.cons as_ (.cons name .nil))

section

variable (isAlias : t.isAlias = true)
include isAlias

theorem not_mem_nested (sql : String) : t ∉ nested sql := by
  simp [nested, ne_word isAlias, ne_raw isAlias]

theorem not_mem_tablePhrase (table : String) (schema : Option String) :
    t ∉ tablePhrase table schema := fun there =>
  forall_mem_tablePhrase (T := (t ≠ ·)) (ne_word isAlias _) (fun _ _ => ne_name isAlias _) t there rfl

theorem not_mem_tableOrNested (subquery : Option String) (table : String)
    (schema : Option String) : t ∉ tableOrNested subquery table schema := by
  cases subquery with
  | some q => exact not_mem_nested isAlias q
  | none => exact not_mem_tablePhrase isAlias table schema

theorem mem_underAlias {shown : Phrase} {name : Token} :
    t ∈ (underAlias shown name).flatten ↔ t ∈ shown ∨ t = name := by
  simp [underAlias, ne_word isAlias]

end

end

/-! ## WITH -/

section

variable {R : Phrase → Phrase → Prop} {T : Token → Prop} {t : Token}

theorem forall_mem_cteColumns {names : Option (List String)}
    (sign : ∀ s ∈ ["(", ", ", ")"], T (.word s)) (name : ∀ ns ∈ names, ∀ s ∈ ns, T (.name s)) :
    ∀ p ∈ cteColumns names, ∀ t ∈ p, T t := by
  simp only [List.mem_cons, List.not_mem_nil, or_false, forall_eq_or_imp, forall_eq] at sign
  obtain ⟨opening, comma, closing⟩ := sign
  rw [cteColumns.eq_def]
  split
  · exact List.forall_mem_nil _
  · exact List.forall_mem_nil _
  · rename_i ns _
    refine List.forall_mem_singleton.mpr ?_
    rw [List.cons_append, List.forall_mem_cons, List.forall_mem_append, List.forall_mem_singleton]
    exact ⟨opening, forall_mem_intercalate (List.forall_mem_singleton.mpr comma)
      (List.forall_mem_map.mpr fun s hs => List.forall_mem_singleton.mpr (name ns rfl s hs)), closing⟩

theorem rel_ctePhrases {Q : Type} (x : Cte Q) {q r : String} (name : R [.name x.name] [.name x.name])
    (columns : ∀ p ∈ cteColumns x.columns, R p p) (as_ : R [.word "AS"] [.word "AS"])
    (inner : R (nested q) (nested r)) :
    List.Forall₂ R (ctePhrases { x with query := q }) (ctePhrases { x with query := r }) :=
  .cons name (List.rel_append (List.forall₂_same.mpr columns) (.cons as_ (.cons inner .nil)))

theorem rel_cteFragments (d : Dialect) {ctes others : List (Cte String)}
    (word : ∀ s ∈ ["WITH", "RECURSIVE"], R [.word s] [.word s])
    (comma : ∀ p q, R p q → R (p ++ [.word ","]) (q ++ [.word ","]))
    (each : List.Forall₂ (fun x y => x.recursive = y.recursive ∧
      List.Forall₂ R (ctePhrases x) (ctePhrases y)) ctes others) :
    RelFragments R (cteFragments d ctes) (cteFragments d others) := by
  simp only [List.mem_cons, List.not_mem_nil, or_false, forall_eq_or_imp, forall_eq] at word
  have recursive : ctes.any (·.recursive) = others.any (·.recursive) := by
    induction each with
    | nil => rfl
    | cons one _ ih => rw [List.any_cons, List.any_cons, one.1, ih]
  have head : List.Forall₂ R (withHead d others) (withHead d others) := by
    rw [withHead]
    split
    · exact .cons word.1 (.cons word.2 .nil)
    · exact .cons word.1 .nil
  have items : List.Forall₂ (List.Forall₂ R) (withCommas (ctes.map ctePhrases))
      (withCommas (others.map ctePhrases)) := by
    refine rel_withCommas comma ?_
    rw [List.forall₂_map_left_iff, List.forall₂_map_right_iff]
    exact each.imp fun x y one => one.2
  rw [cteFragments, cteFragments, withHead, recursive, ← withHead]
  generalize withCommas (ctes.map ctePhrases) = left at items
  generalize withCommas (others.map ctePhrases) = right at items
  cases items with
  | nil => exact .nil
  | cons first more => exact List.rel_append (rel_row (List.rel_append head first)) (rel_rows more)

theorem not_mem_tokens_cteFragments (isAlias : t.isAlias = true) (d : Dialect)
    (ctes : List (Cte String)) : t ∉ tokens (cteFragments d ctes) := by
  have word (s : String) : t ∉ [Token.word s] := by simp [ne_word isAlias]
  refine not_mem_tokens (rel_cteFragments d (fun s _ => word s) (fun p _ absent => ?_)
    (List.forall₂_same.mpr fun x _ => ⟨rfl, rel_ctePhrases x ?_ (fun p hp there => ?_) (word _)
      (not_mem_nested isAlias _)⟩))
  · exact List.not_mem_append absent (word _)
  · simp [ne_name isAlias]
  · exact forall_mem_cteColumns (T := (t ≠ ·)) (fun _ _ => ne_word isAlias _)
      (fun _ _ _ _ => ne_name isAlias _) p hp t there rfl

end

/-! ## SELECT -/

section

variable {R : Phrase → Phrase → Prop} {P : Phrase → Prop} {t : Token}
  {aliases : List (String × String)}

/-- An entry is a nested query, a text that is copied, a column, or what a function makes of one. -/
theorem rel_selectedPhrase {Q : Type} (x : Field Q) {q r : Option String} (inner : RelNested R q r)
    (raw : ∀ e, given x.expression = some e → R [.raw e] [.raw e])
    (column : R (columnRef aliases x.table x.column) (columnRef aliases x.table x.column))
    (star : R [.word "*"] [.word "*"])
    (call : ∀ (a : Aggregate) p, R p p →
      R (.word a.name :: .word "(" :: p ++ [.word ")"]) (.word a.name :: .word "(" :: p ++ [.word ")"])) :
    R (selectedPhrase aliases { x with subquery := q })
      (selectedPhrase aliases { x with subquery := r }) := by
  cases inner with
  | some one => exact one
  | none =>
    unfold selectedPhrase
    dsimp only
    cases written : given x.expression with
    | some e => exact raw e written
    | none =>
      cases x.aggregate with
      | none => exact column
      | some a =>
        refine call a _ ?_
        split
        · exact star
        · exact column

theorem rel_fieldPhrases {Q : Type} (x : Field Q) {q r : Option String}
    (selected : R (selectedPhrase aliases { x with subquery := q })
      (selectedPhrase aliases { x with subquery := r }))
    (as_ : R [.word "AS"] [.word "AS"])
    (name : ∀ a, given x.aliasName = some a → R [.name a] [.name a]) :
    List.Forall₂ R (fieldPhrases aliases { x with subquery := q })
      (fieldPhrases aliases { x with subquery := r }) := by
  rw [fieldPhrases, fieldPhrases]
  cases written : given x.aliasName with
  | some a => exact rel_underAlias selected as_ (name a written)
  | none => exact .cons selected .nil

/-- On the diagonal, for an entry that copies no text. -/
theorem forall_fieldPhrases {x : Field String} (flat : x.subquery = none ∧ given x.expression = none)
    (column : P (columnRef aliases x.table x.column)) (star : P [.word "*"])
    (call : ∀ (a : Aggregate) p, P p → P (.word a.name :: .word "(" :: p ++ [.word ")"]))
    (as_ : P [.word "AS"]) (name : ∀ a, given x.aliasName = some a → P [.name a]) :
    ∀ p ∈ fieldPhrases aliases x, P p := by
  have selected := rel_selectedPhrase (R := fun p _ => P p) x (relNested_of_none flat.1)
    (fun e written => by rw [flat.2] at written; cases written) column star call
  exact forall₂_diagonal.mp (rel_fieldPhrases x selected as_ name)

theorem fieldPhrases_ne_nil (aliases : List (String × String)) (x : Field String) :
    fieldPhrases aliases x ≠ [] := by
  rw [fieldPhrases]
  split
  · exact List.cons_ne_nil _ _
  · exact List.cons_ne_nil _ _

/-- SELECT lists its entries, or a star. -/
theorem rel_selectItems {I : List Phrase → List Phrase → Prop} {fields others : List (Field String)}
    (star : I [[.word "*"]] [[.word "*"]])
    (each : List.Forall₂ (fun x y => x.order = y.order ∧
      I (fieldPhrases aliases x) (fieldPhrases aliases y)) fields others) :
    List.Forall₂ I (selectItems aliases fields) (selectItems aliases others) := by
  have sorted : List.Forall₂ I ((sortedBy (·.order) fields).map (fieldPhrases aliases))
      ((sortedBy (·.order) others).map (fieldPhrases aliases)) := by
    rw [List.forall₂_map_left_iff, List.forall₂_map_right_iff]
    exact (forall₂_sortedBy (fun x y one => one.1.symm) each).imp fun x y one => one.2
  rw [selectItems, selectItems]
  generalize (sortedBy (·.order) fields).map (fieldPhrases aliases) = left at sorted
  generalize (sortedBy (·.order) others).map (fieldPhrases aliases) = right at sorted
  cases sorted with
  | nil => exact .cons star .nil
  | cons first more => exact .cons first more

theorem rel_selectFragments {fields others : List (Field String)} (top : Option Nat)
    (word : ∀ s ∈ ["SELECT", "TOP", "*"], R [.word s] [.word s])
    (number : ∀ n : Nat, R [.word (toString n)] [.word (toString n)])
    (comma : ∀ p q, R p q → R (p ++ [.word ","]) (q ++ [.word ","]))
    (each : List.Forall₂ (fun x y => x.order = y.order ∧
      List.Forall₂ R (fieldPhrases aliases x) (fieldPhrases aliases y)) fields others) :
    RelFragments R (selectFragments aliases fields top) (selectFragments aliases others top) := by
  simp only [List.mem_cons, List.not_mem_nil, or_false, forall_eq_or_imp, forall_eq] at word
  obtain ⟨select, top_, star⟩ := word
  have head : List.Forall₂ R (selectHead top) (selectHead top) := by
    cases top with
    | none => exact .cons select .nil
    | some n => exact .cons select (.cons top_ (.cons (number n) .nil))
  have items := rel_selectItems (.cons star .nil) each
  rw [selectFragments, selectFragments, items.length_eq]
  exact List.rel_append (rel_row head) (rel_rows (rel_withCommas comma items))

/-- On the diagonal: what holds of the entries holds of all that SELECT lists. -/
theorem forall_selectItems {fields : List (Field String)} (star : P [.word "*"])
    (each : ∀ x ∈ fields, ∀ p ∈ fieldPhrases aliases x, P p) :
    ∀ item ∈ selectItems aliases fields, item ≠ [] ∧ ∀ p ∈ item, P p :=
  forall₂_diagonal.mp (rel_selectItems (I := fun item _ => item ≠ [] ∧ ∀ p ∈ item, P p)
    ⟨List.cons_ne_nil _ _, List.forall_mem_singleton.mpr star⟩
    (List.forall₂_same.mpr fun x hx => ⟨rfl, fieldPhrases_ne_nil aliases x, each x hx⟩))

/-- SELECT lists something. -/
theorem selectItems_ne_nil (aliases : List (String × String)) (fields : List (Field String)) :
    (withCommas (selectItems aliases fields)).flatten ≠ [] := by
  refine flatten_withCommas_ne_nil ?_ fun item hitem => (forall_selectItems (P := fun _ => True)
    trivial (fun _ _ _ _ => trivial) item hitem).1
  rw [selectItems]
  split
  · exact List.cons_ne_nil _ _
  · rename_i none
    exact none

/-- Whether an entry of the SELECT list is written with a column of its table. -/
def printsColumn {Q : Type} (x : Field Q) : Bool :=
  x.subquery.isNone && (given x.expression).isNone && !(x.aggregate.isSome && x.column == "*")

section

variable (isAlias : t.isAlias = true)
include isAlias

theorem mem_selectedPhrase {x : Field String} :
    t ∈ selectedPhrase aliases x ↔
      printsColumn x = true ∧ t ∈ columnRef aliases x.table x.column := by
  rw [selectedPhrase, printsColumn]
  cases x.subquery with
  | some q => simp [not_mem_nested isAlias]
  | none =>
    cases given x.expression with
    | some e => simp [ne_raw isAlias]
    | none =>
      cases x.aggregate with
      | none => simp
      | some f => by_cases star : x.column = "*" <;> simp [star, ne_word isAlias]

theorem mem_fieldPhrases {x : Field String} :
    t ∈ (fieldPhrases aliases x).flatten ↔ t ∈ selectedPhrase aliases x := by
  rw [fieldPhrases]
  cases given x.aliasName with
  | none => simp
  | some a => simp [mem_underAlias isAlias, ne_name isAlias]

theorem mem_selectItems {fields : List (Field String)} :
    t ∈ (selectItems aliases fields).flatten.flatten ↔
      ∃ x ∈ fields, t ∈ selectedPhrase aliases x := by
  have sorted : t ∈ ((sortedBy (·.order) fields).map (fieldPhrases aliases)).flatten.flatten ↔
      ∃ x ∈ fields, t ∈ selectedPhrase aliases x := by
    simp only [mem_flatten_map, mem_sortedBy, mem_fieldPhrases isAlias]
  rw [← sorted, selectItems]
  cases (sortedBy (·.order) fields).map (fieldPhrases aliases) with
  | nil => simp [ne_word isAlias]
  | cons item rest => rfl

theorem mem_tokens_selectFragments {fields : List (Field String)} {top : Option Nat} :
    t ∈ tokens (selectFragments aliases fields top) ↔ ∃ x ∈ fields, t ∈ selectedPhrase aliases x := by
  have head : t ∉ (selectHead top).flatten := by
    cases top <;> simp [selectHead, ne_word isAlias]
  rw [selectFragments, tokens_append, tokens_row, List.mem_append, or_iff_right head,
    tokens_rows, mem_withCommas (ne_word isAlias _), mem_selectItems isAlias]

end

end

/-! ## FROM -/

section

variable {R : Phrase → Phrase → Prop} {t : Token}

theorem rel_sourcePhrases {Q : Type} (s : Source Q) {q r : Option String} (inner : RelNested R q r)
    (table : R (tablePhrase s.table s.schema) (tablePhrase s.table s.schema))
    (as_ : R [.word "AS"] [.word "AS"]) (aliasName : R [.declared s.aliasName] [.declared s.aliasName]) :
    RelClause R "FROM" (row .line (sourcePhrases { s with subquery := q }))
      (row .line (sourcePhrases { s with subquery := r })) := by
  have shown := rel_tableOrNested inner table
  rw [sourcePhrases, sourcePhrases]
  by_cases bare : s.aliasName = ""
  · rw [if_pos bare, if_pos bare]
    exact .row (List.cons_ne_nil _ _) (.cons shown .nil)
  · rw [if_neg bare, if_neg bare]
    exact .row (List.cons_ne_nil _ _) (rel_underAlias shown as_ aliasName)

theorem mem_sourcePhrases (isAlias : t.isAlias = true) {s : Source String} :
    t ∈ (sourcePhrases s).flatten ↔ s.aliasName ≠ "" ∧ t = .declared s.aliasName := by
  have shown := not_mem_tableOrNested isAlias s.subquery s.table s.schema
  rw [sourcePhrases, List.flatten_cons, List.mem_append, List.mem_singleton,
    or_iff_right (ne_word isAlias _)]
  by_cases named : s.aliasName = ""
  · simp [named, shown]
  · rw [if_neg named, mem_underAlias isAlias, or_iff_right shown]
    simp [named]

end

/-! ## Joins -/

section

variable {R : Phrase → Phrase → Prop} {P : Phrase → Prop} {t : Token}

theorem rel_joinTarget {Q : Type} (j : Join Q) {q r : Option String} (inner : RelNested R q r)
    (table : R (tablePhrase j.targetTable none) (tablePhrase j.targetTable none))
    (as_ : R [.word "AS"] [.word "AS"])
    (aliasName : R [.declared j.targetAlias] [.declared j.targetAlias])
    (own : q ≠ none → ∀ a, given j.subqueryAlias = some a → R [.declared a] [.declared a]) :
    List.Forall₂ R (joinTarget { j with subquery := q }) (joinTarget { j with subquery := r }) := by
  have shown := rel_tableOrNested inner table
  cases inner with
  | none => exact rel_underAlias shown as_ aliasName
  | some one =>
    refine rel_underAlias shown as_ ?_
    rw [targetAlias]
    cases written : given j.subqueryAlias with
    | none => exact aliasName
    | some a => exact own (Option.some_ne_none _) a written

theorem forall_joinCondition {Q : Type} {j : Join Q}
    (raw : ∀ s, given j.condition = some s → P [.raw s]) (equals : P [.word "="])
    (source : P [.owner j.sourceAlias, .name j.sourceColumn])
    (target : P [.owner j.targetAlias, .name j.targetColumn]) :
    joinCondition j ≠ [] ∧ ∀ p ∈ joinCondition j, P p := by
  rw [joinCondition]
  cases written : given j.condition with
  | some s => exact ⟨List.cons_ne_nil _ _, List.forall_mem_singleton.mpr (raw s written)⟩
  | none => exact ⟨List.cons_ne_nil _ _, by simp [equals, source, target]⟩

theorem rel_joinFragments {g k : JoinGroup String}
    (word : ∀ s ∈ ["JOIN", "ON", "AND"], R [.word s] [.word s])
    (kind : R [.word g.first.kind.name] [.word k.first.kind.name])
    (target : List.Forall₂ R (joinTarget g.first) (joinTarget k.first))
    (conditions : List.Forall₂ (List.Forall₂ R) (g.members.map joinCondition)
      (k.members.map joinCondition)) :
    RelFragments R (joinFragments g) (joinFragments k) := by
  simp only [List.mem_cons, List.not_mem_nil, or_false, forall_eq_or_imp, forall_eq] at word
  obtain ⟨join, on, and_⟩ := word
  rw [joinFragments, joinFragments]
  exact List.rel_append (rel_row (.cons kind (.cons join target)))
    (rel_row (.cons on (rel_intercalate (.cons and_ .nil) conditions)))

theorem mem_joinTarget (isAlias : t.isAlias = true) {j : Join String} :
    t ∈ (joinTarget j).flatten ↔ t = .declared (targetAlias j) := by
  rw [joinTarget, mem_underAlias isAlias, or_iff_right (not_mem_tableOrNested isAlias _ _ _)]

theorem mem_tokens_joinFragments (isAlias : t.isAlias = true) {g : JoinGroup String} :
    t ∈ tokens (joinFragments g) ↔
      t = .declared (targetAlias g.first) ∨ ∃ j ∈ g.members, t ∈ (joinCondition j).flatten := by
  have conditions : t ∈ ([[Token.word "AND"]].intercalate (g.members.map joinCondition)).flatten ↔
      ∃ j ∈ g.members, t ∈ (joinCondition j).flatten := by
    induction g.members with
    | nil => simp
    | cons j rest ih =>
      cases rest with
      | nil => simp
      | cons k rest =>
        rw [List.map_cons, List.map_cons, List.intercalate_cons_cons, List.flatten_append,
          List.flatten_append, List.mem_append, List.mem_append, ← List.map_cons, ih]
        simp [-List.mem_flatten, ne_word isAlias]
  rw [joinFragments, tokens_append, tokens_row, tokens_row, List.mem_append, List.flatten_cons,
    List.flatten_cons, List.flatten_cons (l := [Token.word "ON"]), List.mem_append, List.mem_append,
    List.mem_append, mem_joinTarget isAlias, conditions]
  simp [ne_word isAlias]

end

/-! ## WHERE -/

section

variable {R : Phrase → Phrase → Prop} {P : Phrase → Prop} {t : Token}
  {aliases : List (String × String)}

/-- Values are related as lists are, so that what they are written as has the same shape. -/
structure RelValues (V : Json → Json → Prop) : Prop where
  items : ∀ {vs w}, V (.arr vs) w → ∃ ws, w = .arr ws ∧ List.Forall₂ V vs ws
  scalar : ∀ {v ws}, V v (.arr ws) → ∃ vs, v = .arr vs
  single : ∀ {v w}, V v w → V (.arr [v]) (.arr [w])

/-- What a condition compares with: a value, two values, or the list of one. -/
theorem rel_operandPhrases {V : Json → Json → Prop} (shape : RelValues V)
    (value : ∀ {v w}, V v w → R [.value v] [.value w]) (and_ : R [.word "AND"] [.word "AND"])
    (kind : Operator) {v w : Json} (h : V v w) :
    List.Forall₂ R (operandPhrases kind v) (operandPhrases kind w) := by
  have one : V v w → List.Forall₂ R [[.value v]] [[.value w]] := fun h => .cons (value h) .nil
  fun_cases operandPhrases kind v with
  | case1 low high rest | case2 low high rest =>
    obtain ⟨_, rfl, related⟩ := shape.items h
    obtain ⟨low', _, first, behind, rfl⟩ := List.forall₂_cons_left_iff.mp related
    obtain ⟨high', _, second, -, rfl⟩ := List.forall₂_cons_left_iff.mp behind
    exact .cons (value first) (.cons and_ (.cons (value second) .nil))
  | case3 items | case4 items =>
    obtain ⟨ws, rfl, -⟩ := shape.items h
    exact one h
  | case5 | case6 =>
    rename_i scalar
    cases w with
    | arr ws =>
      obtain ⟨vs, rfl⟩ := shape.scalar h
      exact absurd rfl (scalar vs)
    | _ => exact .cons (value (shape.single h)) .nil
  | case7 =>
    rename_i notIn notNotIn notBetween notNotBetween _ _
    have short (low high : Json) (rest : List Json) (bounded : kind = .between ∨ kind = .notBetween) :
        w ≠ .arr (low :: high :: rest) := by
      rintro rfl
      obtain ⟨vs, rfl⟩ := shape.scalar h
      obtain ⟨ws, same, related⟩ := shape.items h
      cases same
      obtain ⟨x, _, -, behind, rfl⟩ := List.forall₂_cons_right_iff.mp related
      obtain ⟨y, rest, -, -, rfl⟩ := List.forall₂_cons_right_iff.mp behind
      exact bounded.elim (notBetween x y rest · rfl) (notNotBetween x y rest · rfl)
    have alone : operandPhrases kind w = [[.value w]] := by
      rw [operandPhrases.eq_def]
      split
      · exact absurd rfl (short _ _ _ (.inl rfl))
      · exact absurd rfl (short _ _ _ (.inr rfl))
      · exact (notIn rfl).elim
      · exact (notNotIn rfl).elim
      · exact (notIn rfl).elim
      · exact (notNotIn rfl).elim
      · rfl
    rw [alone]
    exact one h

/-- On the diagonal: what holds of a value, of its items and of its list is passed on to the
operands. -/
theorem forall_operandPhrases {V : Json → Prop} (items : ∀ {vs}, V (.arr vs) → ∀ v ∈ vs, V v)
    (single : ∀ {v}, V v → V (.arr [v])) (value : ∀ {v}, V v → P [.value v]) (and_ : P [.word "AND"])
    (kind : Operator) {v : Json} (h : V v) : ∀ p ∈ operandPhrases kind v, P p := by
  have shape : RelValues fun v w => v = w ∧ V v := by
    refine ⟨?_, ?_, ?_⟩
    · rintro vs w ⟨rfl, all⟩
      exact ⟨vs, rfl, List.forall₂_same.mpr fun v hv => ⟨rfl, items all v hv⟩⟩
    · rintro v ws ⟨rfl, -⟩
      exact ⟨ws, rfl⟩
    · rintro v w ⟨rfl, one⟩
      exact ⟨rfl, single one⟩
  exact forall₂_diagonal.mp (rel_operandPhrases (R := fun p _ => P p) shape (fun h => value h.2) and_
    kind ⟨rfl, h⟩)

/-- What EXISTS asks for: a nested query, or else a text that is copied. -/
def asked (c : Condition String) : String :=
  c.subquery.getD (if c.value.isTruthy then c.value.plain else "SELECT 1")

theorem conditionPhrases_of_asksForRows {x : Condition String} (hx : x.asksForRows) :
    conditionPhrases aliases x = [[.word x.operator.name], nested (asked x)] := by
  rw [conditionPhrases.eq_def, asked]
  rcases hx with kind | kind <;> cases x.subquery <;> simp only [kind] <;> rfl

/-- A condition is a column, an operator, and a nested query or operands; EXISTS has no column. -/
theorem rel_conditionPhrases {x y : Condition String} (same : y.operator = x.operator)
    (column : R (columnRef aliases x.table x.column) (columnRef aliases y.table y.column))
    (operator : R [.word x.operator.name] [.word x.operator.name])
    (rows : x.asksForRows → R (nested (asked x)) (nested (asked y)))
    (inner : ¬ x.asksForRows → RelNested R x.subquery y.subquery)
    (operands : ¬ x.asksForRows → x.subquery = none →
      List.Forall₂ R (operandPhrases x.operator x.value) (operandPhrases x.operator y.value)) :
    List.Forall₂ R (conditionPhrases aliases x) (conditionPhrases aliases y) := by
  by_cases asks : x.asksForRows
  · have asks' : y.asksForRows := by rwa [Condition.asksForRows, same]
    rw [conditionPhrases_of_asksForRows asks, conditionPhrases_of_asksForRows asks', same]
    exact .cons operator (.cons (rows asks) .nil)
  · have inner := inner asks
    have operands := operands asks
    rw [conditionPhrases.eq_def, conditionPhrases.eq_def, same]
    dsimp only
    split
    · exact absurd (Or.inl ‹_›) asks
    · exact absurd (Or.inr ‹_›) asks
    · exact .cons column (.cons operator .nil)
    · exact .cons column (.cons operator .nil)
    · generalize x.subquery = q at inner operands
      generalize y.subquery = r at inner
      cases inner with
      | some one => exact .cons column (.cons operator (.cons one .nil))
      | none => exact .cons column (.cons operator (operands rfl))

theorem conditionPhrases_ne_nil (aliases : List (String × String)) (x : Condition String) :
    conditionPhrases aliases x ≠ [] := by
  rw [conditionPhrases.eq_def]
  dsimp only
  split <;> first | exact List.cons_ne_nil _ _ | (split <;> exact List.cons_ne_nil _ _)

/-- On the diagonal, for a condition without a nested query. -/
theorem forall_conditionPhrases {x : Condition String}
    (flat : x.subquery = none ∧ x.operator ≠ .hasRows ∧ x.operator ≠ .hasNoRows)
    (column : P (columnRef aliases x.table x.column)) (operator : P [.word x.operator.name])
    (operands : ∀ p ∈ operandPhrases x.operator x.value, P p) :
    ∀ p ∈ conditionPhrases aliases x, P p := by
  have asks : ¬ x.asksForRows := fun asks => asks.elim flat.2.1 flat.2.2
  exact forall₂_diagonal.mp (rel_conditionPhrases (R := fun p _ => P p) rfl column operator
    (fun there => absurd there asks) (fun _ => relNested_of_none flat.1)
    fun _ _ => List.forall₂_same.mpr operands)

/-- WHERE is followed by conditions with connectives between them. -/
theorem rel_conditionFragments {conditions others : List (Condition String)}
    (connective : ∀ w : Connective, R [.word w.name] [.word w.name])
    (each : List.Forall₂ (fun x y => x.order = y.order ∧ x.connective = y.connective ∧
      List.Forall₂ R (conditionPhrases aliases x) (conditionPhrases aliases y)) conditions others) :
    RelClause R "WHERE" (conditionFragments aliases conditions) (conditionFragments aliases others) := by
  have sorted : List.Forall₂ _ (sortedBy (·.order) conditions) (sortedBy (·.order) others) :=
    forall₂_sortedBy (fun x y one => one.1.symm) each
  rw [conditionFragments, conditionFragments]
  generalize sortedBy (·.order) conditions = left at sorted
  generalize sortedBy (·.order) others = right at sorted
  cases sorted with
  | nil => exact .absent
  | @cons x y xs ys first more =>
    refine .present ?_ (List.rel_append (rel_map_fragment first.2.2)
      (List.rel_flatMap more fun x y one => ?_))
    · simp [conditionPhrases_ne_nil]
    · rw [one.2.1]
      exact rel_row (.cons (connective _) one.2.2)

/-- On the diagonal. -/
theorem forall_conditionFragments {conditions : List (Condition String)}
    (connective : ∀ w : Connective, P [.word w.name])
    (each : ∀ x ∈ conditions, ∀ p ∈ conditionPhrases aliases x, P p) :
    RelClause (fun p _ => P p) "WHERE" (conditionFragments aliases conditions)
      (conditionFragments aliases conditions) :=
  rel_conditionFragments connective (List.forall₂_same.mpr fun x hx =>
    ⟨rfl, rfl, List.forall₂_same.mpr (each x hx)⟩)

/-- Every condition is behind WHERE. -/
theorem exists_conditionFragments_eq (aliases : List (String × String))
    {conditions : List (Condition String)} {x : Condition String} (hx : x ∈ conditions) :
    ∃ front behind, (conditionFragments aliases conditions).map Fragment.phrase =
      [.word "WHERE"] :: (front ++ (conditionPhrases aliases x ++ behind)) := by
  have hx : x ∈ sortedBy (·.order) conditions := mem_sortedBy.mpr hx
  rw [conditionFragments]
  split
  · rename_i none
    rw [none] at hx
    cases hx
  · rename_i first rest sorted
    rw [sorted] at hx
    rw [List.map_append, map_phrase_row, List.cons_append]
    rcases List.mem_cons.mp hx with rfl | hx
    · exact ⟨[], _, rfl⟩
    · obtain ⟨before, after, rfl⟩ := List.append_of_mem hx
      rw [List.flatMap_append, List.flatMap_cons, List.map_append, List.map_append, map_phrase_row]
      have middle (a b e r : List Phrase) (k : Phrase) :
          a ++ (b ++ (k :: e ++ r)) = (a ++ (b ++ [k])) ++ (e ++ r) := by
        simp only [List.append_assoc, List.cons_append, List.nil_append]
      exact ⟨_, _, congrArg _ (middle _ _ _ _ _)⟩

/-- Whether a condition is written with a column of its table. -/
def comparesColumn {Q : Type} (c : Condition Q) : Bool :=
  c.operator != .hasRows && c.operator != .hasNoRows

section

variable (isAlias : t.isAlias = true)
include isAlias

theorem not_mem_operandPhrases (kind : Operator) (v : Json) :
    t ∉ (operandPhrases kind v).flatten := by
  rw [List.mem_flatten]
  rintro ⟨p, hp, there⟩
  refine forall_operandPhrases (P := (t ∉ ·)) (V := fun _ => True) (fun _ _ _ => trivial)
    (fun _ => trivial) (fun _ => ?_) ?_ kind (v := v) trivial p hp there
  · simp [ne_value isAlias]
  · simp [ne_word isAlias]

theorem mem_conditionPhrases {c : Condition String} :
    t ∈ (conditionPhrases aliases c).flatten ↔
      comparesColumn c = true ∧ t ∈ columnRef aliases c.table c.column := by
  rw [conditionPhrases.eq_def, comparesColumn]
  cases c.operator <;> cases c.subquery <;>
    simp [not_mem_nested isAlias, not_mem_operandPhrases isAlias, ne_word isAlias]

theorem mem_tokens_conditionFragments {conditions : List (Condition String)} :
    t ∈ tokens (conditionFragments aliases conditions) ↔
      ∃ c ∈ conditions, comparesColumn c = true ∧ t ∈ columnRef aliases c.table c.column := by
  have sorted : (∃ c ∈ sortedBy (·.order) conditions, t ∈ (conditionPhrases aliases c).flatten) ↔
      ∃ c ∈ conditions, comparesColumn c = true ∧ t ∈ columnRef aliases c.table c.column := by
    simp only [mem_sortedBy, mem_conditionPhrases isAlias]
  rw [← sorted, conditionFragments]
  cases sortedBy (·.order) conditions with
  | nil => simp
  | cons first rest =>
    simp [-List.mem_flatten, mem_tokens_flatMap, ne_word isAlias]

end

end

/-! ## GROUP BY -/

section

variable {R : Phrase → Phrase → Prop} {P : Phrase → Prop} {t : Token}
  {aliases : List (String × String)} {groupings : List Grouping}

/-- What is grouped by is a column. -/
theorem forall_groupingItems (column : ∀ g ∈ groupings, P (columnRef aliases g.table g.column)) :
    ∀ item ∈ (sortedBy (·.order) groupings).map fun g => [columnRef aliases g.table g.column],
      item ≠ [] ∧ ∀ p ∈ item, P p := by
  intro item hitem
  obtain ⟨g, hg, rfl⟩ := List.mem_map.mp hitem
  exact ⟨List.cons_ne_nil _ _, List.forall_mem_singleton.mpr (column g (mem_sortedBy.mp hg))⟩

theorem rel_groupingFragments (comma : ∀ p q, R p q → R (p ++ [.word ","]) (q ++ [.word ","]))
    (column : ∀ g ∈ groupings, R (columnRef aliases g.table g.column)
      (columnRef aliases g.table g.column)) :
    RelClause R "GROUP BY" (groupingFragments aliases groupings)
      (groupingFragments aliases groupings) := by
  have each := forall_groupingItems (P := fun p => R p p) column
  rw [groupingFragments]
  split
  · exact .absent
  · rename_i some
    exact .listed comma (by simpa using some) each

theorem mem_tokens_groupingFragments (isAlias : t.isAlias = true) :
    t ∈ tokens (groupingFragments aliases groupings) ↔
      ∃ g ∈ groupings, t ∈ columnRef aliases g.table g.column := by
  have sorted : (∃ g ∈ sortedBy (·.order) groupings, t ∈ columnRef aliases g.table g.column) ↔
      ∃ g ∈ groupings, t ∈ columnRef aliases g.table g.column := by
    simp only [mem_sortedBy]
  rw [← sorted, groupingFragments]
  cases sortedBy (·.order) groupings with
  | nil => simp
  | cons first rest =>
    rw [mem_tokens_listed isAlias, mem_flatten_map]
    simp

end

/-! ## Unions -/

section

variable {R : Phrase → Phrase → Prop} {t : Token}

theorem rel_unionFragments {unions others : List (Union String)}
    (kind : ∀ k : UnionKind, R [.word k.name] [.word k.name])
    (each : List.Forall₂ (fun u v => u.order = v.order ∧ u.kind = v.kind ∧
      R [.raw u.query] [.raw v.query]) unions others) :
    RelFragments R (unionFragments unions) (unionFragments others) := by
  refine List.rel_flatMap (forall₂_sortedBy (fun u v one => one.1.symm) each) fun u v one => ?_
  rw [one.2.1]
  exact rel_row (.cons (kind v.kind) (.cons one.2.2 .nil))

theorem not_mem_tokens_unionFragments (isAlias : t.isAlias = true) (unions : List (Union String)) :
    t ∉ tokens (unionFragments unions) :=
  not_mem_tokens (rel_unionFragments (fun _ => by simp [ne_word isAlias])
    (List.forall₂_same.mpr fun _ _ => ⟨rfl, rfl, by simp [ne_raw isAlias]⟩))

end

/-! ## ORDER BY -/

section

variable {R : Phrase → Phrase → Prop} {P : Phrase → Prop} {t : Token}
  {aliases : List (String × String)} {sortings : List Sorting}

/-- What is sorted by is a column with a direction. -/
theorem forall_sortingItems (column : ∀ s ∈ sortings, P (columnRef aliases s.table s.column))
    (direction : ∀ w : Direction, P [.word w.name]) :
    ∀ item ∈ (sortedBy (·.order) sortings).map fun s =>
      [columnRef aliases s.table s.column, [.word s.direction.name]],
      item ≠ [] ∧ ∀ p ∈ item, P p := by
  intro item hitem
  obtain ⟨s, hs, rfl⟩ := List.mem_map.mp hitem
  exact ⟨List.cons_ne_nil _ _, List.forall_mem_cons.mpr
    ⟨column s (mem_sortedBy.mp hs), List.forall_mem_singleton.mpr (direction _)⟩⟩

theorem rel_sortingFragments (comma : ∀ p q, R p q → R (p ++ [.word ","]) (q ++ [.word ","]))
    (column : ∀ s ∈ sortings, R (columnRef aliases s.table s.column)
      (columnRef aliases s.table s.column))
    (direction : ∀ w : Direction, R [.word w.name] [.word w.name]) :
    RelClause R "ORDER BY" (sortingFragments aliases sortings) (sortingFragments aliases sortings) := by
  have each := forall_sortingItems (P := fun p => R p p) column direction
  rw [sortingFragments]
  split
  · exact .absent
  · rename_i some
    exact .listed comma (by simpa using some) each

theorem mem_tokens_sortingFragments (isAlias : t.isAlias = true) :
    t ∈ tokens (sortingFragments aliases sortings) ↔
      ∃ s ∈ sortings, t ∈ columnRef aliases s.table s.column := by
  have sorted : (∃ s ∈ sortedBy (·.order) sortings, t ∈ columnRef aliases s.table s.column) ↔
      ∃ s ∈ sortings, t ∈ columnRef aliases s.table s.column := by
    simp only [mem_sortedBy]
  rw [← sorted, sortingFragments]
  cases sortedBy (·.order) sortings with
  | nil => simp
  | cons first rest =>
    rw [mem_tokens_listed isAlias, mem_flatten_map]
    simp [ne_word isAlias]

end

/-! ## Paging -/

section

variable {R : Phrase → Phrase → Prop} {t : Token}

/-- Paging is made of keywords and numbers. -/
theorem rel_pagingFragments (paging : Paging)
    (word : ∀ s ∈ ["LIMIT", "OFFSET", "ROWS", "FETCH NEXT", "ROWS ONLY"], R [.word s] [.word s])
    (number : ∀ n : Nat, R [.word (toString n)] [.word (toString n)]) :
    RelFragments R (pagingFragments paging) (pagingFragments paging) := by
  simp only [List.mem_cons, List.not_mem_nil, or_false, forall_eq_or_imp, forall_eq] at word
  obtain ⟨limit, offset, rows, fetch, only⟩ := word
  rw [pagingFragments.eq_def]
  split
  · exact rel_row (.cons limit (.cons (number _) .nil))
  · exact rel_row (.cons limit (.cons (number _) (.cons offset (.cons (number _) .nil))))
  · exact rel_row (.cons offset (.cons (number _) (.cons rows (.cons fetch (.cons (number _)
      (.cons only .nil))))))
  · exact .nil

theorem not_mem_tokens_pagingFragments (isAlias : t.isAlias = true) (paging : Paging) :
    t ∉ tokens (pagingFragments paging) :=
  not_mem_tokens (rel_pagingFragments paging (fun _ _ => by simp [ne_word isAlias])
    fun _ => by simp [ne_word isAlias])

end

end QueryWorkbench.Sql
