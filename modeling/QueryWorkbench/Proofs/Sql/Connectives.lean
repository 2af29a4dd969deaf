/-
QueryWorkbench.Proofs.Sql.Connectives — a condition with a new line at every connective.

A tidy text is made of chunks with spaces between them. Of a condition, formatting makes the same
chunks with a line break in front of every AND and OR that has a chunk on both sides (`broken`,
`flatMap_conditionLines`). What stands between two chunks is decided by these two and their
neighbours alone (`broken_append`, `exists_broken_append`), and nothing but blanks is changed where
connectives are in capitals (`squeeze_broken`).
-/
import QueryWorkbench.Proofs.Pattern.Excerpt
import QueryWorkbench.Proofs.Sql.Normal

namespace QueryWorkbench.Sql

open Analysis Pattern Text

/-! ## Chunks -/

/-- A piece of a text between blanks. -/
structure IsChunk (k : List Char) : Prop where
  nonempty : k ≠ []
  solid : ∀ c ∈ k, isBlank c = false

theorem IsChunk.tidy {k : List Char} (h : IsChunk k) : Tidy k := tidy_of_all h.nonempty h.solid

/-- The chunks of a squeezed text. -/
def chunks (s : List Char) : List (List Char) := s.splitOn ' '

theorem intercalate_chunks (s : List Char) : [' '].intercalate (chunks s) = s :=
  List.intercalate_splitOn ' '

theorem chunks_space (s t : List Char) : chunks (s ++ ' ' :: t) = chunks s ++ chunks t := by
  rw [chunks, List.splitOn_eq_splitOnP, List.splitOnP_append_cons s t (by simp)]
  simp only [chunks, List.splitOn_eq_splitOnP]

theorem IsChunk.chunks {k : List Char} (h : IsChunk k) : chunks k = [k] := by
  refine List.splitOn_eq_singleton fun space => ?_
  have solid := h.solid ' ' space
  cases solid

theorem chunks_ne_nil (s : List Char) : chunks s ≠ [] := List.splitOn_ne_nil ' ' s

/-- A tidy text is one chunk, or a chunk and a tidy text behind it. -/
theorem Tidy.cases {s : List Char} (h : Tidy s) :
    IsChunk s ∨ ∃ k t, IsChunk k ∧ Tidy t ∧ s = k ++ ' ' :: t := by
  have all : ∀ c ∈ s.takeWhile (!isBlank ·), isBlank c = false := fun c hc => by
    simpa using List.all_eq_true.mp List.all_takeWhile c hc
  have split := (List.takeWhile_append_dropWhile (p := (!isBlank ·)) (l := s)).symm
  have edge := List.head?_dropWhile_not (!isBlank ·) s
  generalize s.takeWhile (!isBlank ·) = k at all split
  cases rest : s.dropWhile (!isBlank ·) with
  | nil =>
    rw [rest, List.append_nil] at split
    exact Or.inl ⟨h.nonempty, split ▸ all⟩
  | cons b t =>
    rw [rest] at split edge
    have blank : isBlank b = true := by simpa using edge
    have nonempty : k ≠ [] := by
      rintro rfl
      have first := h.first
      rw [split] at first
      simp [blank] at first
    have chunk : IsChunk k := ⟨nonempty, all⟩
    have squeezed := h.squeezed
    rw [split, chunk.tidy.squeeze_append, List.append_cancel_left_eq,
      squeeze_cons_eq_self_iff] at squeezed
    obtain ⟨tail, spaces⟩ := squeezed
    obtain ⟨rfl, next⟩ := spaces blank
    have last := h.last
    rw [split, List.getLast?_append, List.getLast?_cons] at last
    have t_ne : t ≠ [] := by
      rintro rfl
      cases last
    refine Or.inr ⟨k, t, chunk, ⟨t_ne, ?_, ?_, tail⟩, split⟩
    · obtain ⟨c, t, rfl⟩ := List.exists_cons_of_ne_nil t_ne
      refine Bool.eq_false_iff.mpr fun found => ?_
      obtain ⟨-, single⟩ := squeeze_cons_eq_self_iff.mp tail
      exact next (by rw [(single found).1]; rfl)
    · rw [List.getLast?_eq_some_getLast t_ne] at last ⊢
      exact last

theorem isChunk_of_mem_chunks {s : List Char} (h : Tidy s) : ∀ k ∈ chunks s, IsChunk k := by
  rcases Tidy.cases h with chunk | ⟨k, t, chunk, tidy, split⟩
  · rw [chunk.chunks]
    intro l hl
    exact List.mem_singleton.mp hl ▸ chunk
  · intro l hl
    rw [split, chunks_space, chunk.chunks] at hl
    rcases List.mem_cons.mp hl with rfl | hl
    · exact chunk
    · exact isChunk_of_mem_chunks tidy l hl
termination_by s.length
decreasing_by
  have := congrArg List.length split
  rw [List.length_append, List.length_cons] at this
  omega

/-! ## Connectives -/

/-- A word that starts a new line. -/
def Connects (k : List Char) : Prop := ∃ w ∈ ["AND", "OR"], Spells w k

instance (k : List Char) : Decidable (Connects k) :=
  inferInstanceAs (Decidable (∃ w ∈ ["AND", "OR"], Spells w k))

theorem Connects.isWord {k : List Char} (connects : Connects k) :
    k ≠ [] ∧ ∀ c ∈ k, Text.isWord c = true := by
  obtain ⟨w, hw, spelled⟩ := connects
  have words : AreWords ["AND", "OR"] := by decide
  exact ⟨ne_nil_of_spells words hw spelled, isWord_of_spells words hw spelled⟩

/-- Chunks with spaces between them, but with a line break in front of every connective that has a
chunk on both sides; the connectives are in capitals. -/
def broken (indent : List Char) : List (List Char) → List Char
  | [] => []
  | [k] => k
  | [k, l] => k ++ ' ' :: l
  | k :: l :: m :: rest =>
    if Connects l then
      k ++ '\n' :: (indent ++ (l.map keywordCapital ++ ' ' :: broken indent (m :: rest)))
    else k ++ ' ' :: broken indent (l :: m :: rest)

section

variable {before : Option Char} {position : Nat} {k l r : List Char}

/-- In front of no blank there is no connective. -/
theorem outcomes_connective_eq_nil (edge : r.head?.any isBlank = false) :
    Clause.connective.outcomes ⟨before, position, r⟩ = [] := by
  refine outcomes_seq_eq_nil_of_left ?_
  rw [List.eq_nil_iff_forall_not_mem]
  intro o h
  obtain ⟨a, rest, a_ne, split, blank, -⟩ := mem_outcomes_run h
  obtain ⟨c, a, rfl⟩ := List.exists_cons_of_ne_nil a_ne
  have split : r = c :: a ++ rest := split
  have found : isBlank c = true := blank c (List.mem_cons_self ..)
  rw [split] at edge
  simp [found] at edge

/-- A chunk that is no connective, or has nothing behind it, is not taken for one. -/
theorem outcomes_connecting_eq_nil (chunk : IsChunk k) (edge : r = [] ∨ ∃ t, r = ' ' :: t)
    (other : ¬ Connects k ∨ r = []) :
    (seq (keep Piece.connective (anyKeyword ["AND", "OR"])) someBlanks).outcomes
      ⟨before, position, k ++ r⟩ = [] := by
  have words : AreWords ["AND", "OR"] := by decide
  rw [List.eq_nil_iff_forall_not_mem]
  intro o h
  obtain ⟨o₁, h₁, o₂, h₂, -⟩ := mem_outcomes_seq.mp h
  obtain ⟨o₃, h₃, rfl⟩ := mem_outcomes_keep.mp h₁
  obtain ⟨j, hj, h₃⟩ := exists_of_mem_outcomes_anyKeyword h₃
  obtain ⟨w, rest, split, spelled, rfl⟩ := mem_outcomes_keyword h₃
  have split : k ++ r = w ++ rest := split
  have solid : ∀ c ∈ w, (!isBlank c) = true := fun c hc => by
    rw [not_isBlank_of_isWord (isWord_of_spells words hj spelled c hc), Bool.not_false]
  -- The keyword ends where the chunk ends, since it ends in front of a blank.
  obtain ⟨t, rfl, rfl⟩ := exists_of_append_eq (by rcases edge with rfl | ⟨t, rfl⟩ <;> rfl) solid split
  obtain ⟨g, s, g_ne, gap, blank, -⟩ := mem_outcomes_run h₂
  obtain ⟨b, g, rfl⟩ := List.exists_cons_of_ne_nil g_ne
  have gap : t ++ r = b :: g ++ s := gap
  cases t with
  | nil =>
    rw [List.append_nil] at other
    rcases other with other | rfl
    · exact other ⟨j, hj, spelled⟩
    · cases gap
  | cons e t =>
    obtain ⟨rfl, -⟩ := List.cons.inj gap
    have inside := chunk.solid e (by simp)
    rw [show isBlank e = true from blank e (List.mem_cons_self ..)] at inside
    cases inside

/-- Behind a space there is no connective either, unless the next chunk is one and something is
behind it. -/
theorem outcomes_space_eq_nil (chunk : IsChunk k) (edge : r = [] ∨ ∃ t, r = ' ' :: t)
    (other : ¬ Connects k ∨ r = []) :
    Clause.connective.outcomes ⟨before, position, ' ' :: (k ++ r)⟩ = [] := by
  refine outcomes_seq_eq_nil.mpr fun o ho => ?_
  obtain ⟨a, s, a_ne, split, blank, rfl⟩ := mem_outcomes_run ho
  -- Of blanks there is only the one space.
  obtain ⟨c, a, rfl⟩ := List.exists_cons_of_ne_nil a_ne
  obtain ⟨-, split⟩ := List.cons.inj split
  obtain rfl : a = [] := by
    cases a with
    | nil => rfl
    | cons e a =>
      have found : isBlank e = true := blank e (by simp)
      obtain ⟨b, k, rfl⟩ := List.exists_cons_of_ne_nil chunk.nonempty
      obtain ⟨rfl, -⟩ := List.cons.inj split
      have solid := chunk.solid b (List.mem_cons_self ..)
      rw [found] at solid
      cases solid
  obtain rfl : k ++ r = s := split
  exact outcomes_connecting_eq_nil chunk edge other

/-- A connective is taken with the spaces around it. -/
theorem first_connective (connects : Connects k) (edge : r.head?.any isBlank = false) :
    First Clause.connective ⟨before, position, ' ' :: (k ++ ' ' :: r)⟩
      ⟨some ' ', position + k.length + 2, r⟩
      [(.connective, ⟨⟨some ' ', position + 1, k ++ ' ' :: r⟩, k.length⟩)] := by
  obtain ⟨nonempty, word⟩ := connects.isWord
  obtain ⟨w, hw, spelled⟩ := connects
  have taken : First (anyKeyword (σ := Piece) ["AND", "OR"])
      ⟨some ' ', position + 1, k ++ ' ' :: r⟩
      ⟨k.getLast?.or (some ' '), position + 1 + k.length, ' ' :: r⟩ [] :=
    first_anyKeyword hw (by decide) (by decide) nonempty spelled
  have space : First (someBlanks (σ := Piece)) ⟨before, position, ' ' :: (k ++ ' ' :: r)⟩
      ⟨some ' ', position + 1, k ++ ' ' :: r⟩ [] :=
    first_someBlanks (head?_isBlank_of_isWord nonempty word (' ' :: r))
  have whole := space.seq ((taken.keep .connective).seq (first_someBlanks edge))
  rw [List.append_nil, List.nil_append] at whole
  have length : position + 1 + k.length - (position + 1) = k.length := Nat.add_sub_cancel_left ..
  have stop : position + 1 + k.length + 1 = position + k.length + 2 := by omega
  rw [length, stop] at whole
  exact whole

/-! ## Searching for connectives -/

/-- The search for connectives passes over a chunk. -/
theorem matchesFrom_chunk (solid : ∀ c ∈ k, isBlank c = false) :
    Clause.connective.matchesFrom before position (k ++ r) =
      Clause.connective.matchesFrom (k.getLast?.or before) (position + k.length) r := by
  induction k generalizing before position with
  | nil => rfl
  | cons c k ih =>
    have none : Clause.connective.outcomes ⟨before, position, c :: (k ++ r)⟩ = [] :=
      outcomes_connective_eq_nil (solid c (List.mem_cons_self ..))
    rw [List.cons_append, matchesFrom_cons none, ih fun d hd => solid d (List.mem_cons_of_mem _ hd),
      getLast?_cons_or, List.length_cons, Nat.add_right_comm, Nat.add_assoc]

/-- The search for connectives finds one with a chunk on both sides. -/
theorem exists_matchesFrom_connective (connects : Connects k) (edge : r.head?.any isBlank = false) :
    ∃ m b, Clause.connective.matchesFrom before position (' ' :: (k ++ ' ' :: r)) =
        m :: Clause.connective.matchesFrom b m.stop.position r ∧
      m.start.position = position ∧ m.stop.rest = r ∧ m.part .connective = k := by
  have text : ' ' :: (k ++ ' ' :: r) = ' ' :: (k ++ [' ']) ++ r := by
    rw [List.cons_append, List.append_assoc, List.singleton_append]
  have found := @first_connective before position k r connects edge
  have length : position + (' ' :: (k ++ [' '])).length = position + k.length + 2 := by
    simp only [List.length_cons, List.length_append, List.length_nil]
    omega
  rw [text] at found ⊢
  have taken := matchesFrom_take (List.cons_ne_nil _ _) found length.symm
  rw [length] at taken
  refine ⟨_, _, taken, rfl, rfl, ?_⟩
  simp [Match.part, Match.part?, Assoc.get?, Span.chars]

end

/-- Chunks with a space between any two. -/
abbrev joined (ks : List (List Char)) : List Char := [' '].intercalate ks

theorem joined_cons_cons (k l : List Char) (ks : List (List Char)) :
    joined (k :: l :: ks) = k ++ ' ' :: joined (l :: ks) := by
  rw [joined, List.intercalate_cons_cons, List.append_assoc, List.singleton_append]

theorem joined_cons (k : List Char) (ks : List (List Char)) : joined (k :: ks) = k ++ spaced ks :=
  intercalate_cons [' '] k ks

theorem joined_append {ks ls : List (List Char)} (ks_ne : ks ≠ []) (ls_ne : ls ≠ []) :
    joined (ks ++ ls) = joined ks ++ ' ' :: joined ls := by
  obtain ⟨k, ks, rfl⟩ := List.exists_cons_of_ne_nil ks_ne
  obtain ⟨l, ls, rfl⟩ := List.exists_cons_of_ne_nil ls_ne
  rw [List.cons_append, joined_cons, joined_cons, joined_cons, spaced_append, spaced_cons,
    List.append_assoc]

theorem wordsOf_joined (ks : List (List Char)) : wordsOf (joined ks) = ks.flatMap wordsOf := by
  induction ks with
  | nil => rfl
  | cons k ks ih =>
    cases ks with
    | nil => rw [joined, List.intercalate_singleton, List.flatMap_singleton]
    | cons l ks =>
      rw [joined_cons_cons, wordsOf_append_cons (by decide), ih, List.flatMap_cons, List.flatMap_cons,
        List.flatMap_cons]

theorem lacks_joined {js : List String} {ks : List (List Char)} :
    Lacks js (joined ks) ↔ ∀ k ∈ ks, Lacks js k := by
  rw [Lacks, wordsOf_joined]
  simp only [List.forall_mem_flatMap, Lacks]

/-- Firm texts in a row are normalised one by one. -/
theorem normal_joined {ks : List (List Char)} (firm : ∀ k ∈ ks, Firm k) :
    normal (joined ks) = joined (ks.map normal) := by
  cases ks with
  | nil => rfl
  | cons k ks =>
    rw [joined_cons, List.map_cons, joined_cons, normal_spaced (firm k (List.mem_cons_self ..))
      fun l hl => firm l (List.mem_cons_of_mem _ hl)]

/-- A connective between blanks is one of the words of a text. -/
theorem mem_wordsOf_of_connects {s k : List Char} (hk : k ∈ chunks s) (connects : Connects k) :
    k ∈ wordsOf s := by
  have alone : wordsOf k = [k] := wordsOf_of_all connects.isWord.1 connects.isWord.2
  rw [← intercalate_chunks s, wordsOf_joined]
  exact List.mem_flatMap.mpr ⟨k, hk, alone ▸ List.mem_singleton.mpr rfl⟩

/-- Nothing blank stands in front of chunks. -/
theorem head?_joined_append {k : List Char} (chunk : IsChunk k) (ks : List (List Char))
    (r : List Char) : (joined (k :: ks) ++ r).head?.any isBlank = false := by
  obtain ⟨c, k, rfl⟩ := List.exists_cons_of_ne_nil chunk.nonempty
  have solid : isBlank c = false := chunk.solid c (List.mem_cons_self ..)
  cases ks with
  | nil =>
    rw [joined, List.intercalate_singleton]
    exact solid
  | cons l ks =>
    rw [joined_cons_cons]
    exact solid

/-! ## Lines -/

/-- What stands in front of the first match of a search from a position on. -/
def firstPiece (position : Nat) (s : List Char) : List (Match Piece) → List Char
  | [] => s
  | m :: _ => s.take (m.start.position - position)

theorem connectiveLines_cons (indent : List Char) (m : Match Piece) (rest : List (Match Piece)) :
    connectiveLines indent (m :: rest) = (indent ++ (m.part .connective).map keywordCapital ++
      ' ' :: trim (firstPiece m.stop.position m.stop.rest rest)) :: connectiveLines indent rest := by
  cases rest with
  | nil =>
    rw [firstPiece, connectiveLines.eq_def]
    simp only [List.take_length]
  | cons next rest => rfl

/-- The connectives found in a text make lines that are, one behind the other, the text `t`. -/
structure LaysOut (indent : List Char) (position : Nat) (s : List Char) (found : List (Match Piece))
    (t : List Char) : Prop where
  tidy : Tidy (firstPiece position s found)
  lines : firstPiece position s found ++
    (connectiveLines indent found).flatMap ('\n' :: ·) = t

section

variable {indent k s t : List Char} {position : Nat} {found : List (Match Piece)}

theorem LaysOut.alone (tidy : Tidy s) : LaysOut indent position s [] s :=
  ⟨tidy, List.append_nil s⟩

/-- A chunk in front goes onto the first line. -/
theorem LaysOut.chunk (hk : IsChunk k)
    (behind : ∀ m ∈ found, position + k.length + 1 ≤ m.start.position)
    (h : LaysOut indent (position + k.length + 1) s found t) :
    LaysOut indent position (k ++ ' ' :: s) found (k ++ ' ' :: t) := by
  have piece : firstPiece position (k ++ ' ' :: s) found =
      k ++ ' ' :: firstPiece (position + k.length + 1) s found := by
    cases found with
    | nil => rfl
    | cons m found =>
      have le := behind m (List.mem_cons_self ..)
      have length : m.start.position - position =
          k.length + (m.start.position - (position + k.length + 1) + 1) := by omega
      rw [firstPiece, firstPiece, length, List.take_length_add_append, List.take_succ_cons]
  refine ⟨piece ▸ hk.tidy.space h.tidy, ?_⟩
  rw [piece, List.append_assoc, List.cons_append, h.lines]

/-- A connective found behind a chunk ends the line of the chunk. -/
theorem LaysOut.connective (hk : IsChunk k) {m : Match Piece} {r : List Char}
    (start : m.start.position = position + k.length)
    (h : LaysOut indent m.stop.position m.stop.rest found t) :
    LaysOut indent position (k ++ r) (m :: found)
      (k ++ '\n' :: (indent ++ ((m.part .connective).map keywordCapital ++ ' ' :: t))) := by
  have piece : firstPiece position (k ++ r) (m :: found) = k := by
    rw [firstPiece, start, Nat.add_sub_cancel_left, List.take_left]
  refine ⟨piece.symm ▸ hk.tidy, ?_⟩
  rw [piece, connectiveLines_cons, trim_eq h.tidy.first h.tidy.last, List.flatMap_cons, ← h.lines]
  simp only [List.append_assoc, List.cons_append]

end

/-- The search for connectives lays the chunks of a text out. -/
theorem laysOut_broken (indent : List Char) {ks : List (List Char)} (some : ks ≠ [])
    (all : ∀ k ∈ ks, IsChunk k) (before : Option Char) (position : Nat) :
    LaysOut indent position (joined ks)
      (Clause.connective.matchesFrom before position (joined ks)) (broken indent ks) := by
  -- Where the second chunk starts no new line, the search goes on with it.
  have goOn {k l : List Char} {ks : List (List Char)} (hk : IsChunk k)
      (none : ∀ before position, Clause.connective.outcomes
        ⟨before, position, ' ' :: joined (l :: ks)⟩ = [])
      (ih : ∀ before position, LaysOut indent position (joined (l :: ks))
        (Clause.connective.matchesFrom before position (joined (l :: ks))) (broken indent (l :: ks)))
      (before : Option Char) (position : Nat) : LaysOut indent position (joined (k :: l :: ks))
        (Clause.connective.matchesFrom before position (joined (k :: l :: ks)))
        (k ++ ' ' :: broken indent (l :: ks)) := by
    rw [joined_cons_cons, matchesFrom_chunk hk.solid, matchesFrom_cons (none _ _)]
    exact (ih _ _).chunk hk fun m hm => le_start_of_mem_collect hm
  have single {k : List Char} (hk : IsChunk k) (before : Option Char) (position : Nat) :
      LaysOut indent position (joined [k])
        (Clause.connective.matchesFrom before position (joined [k])) k := by
    have passed := @matchesFrom_chunk before position k [] hk.solid
    rw [List.append_nil] at passed
    rw [joined, List.intercalate_singleton, passed]
    exact .alone hk.tidy
  induction ks using broken.induct generalizing before position with
  | case1 => exact absurd rfl some
  | case2 k => exact single (all k (List.mem_cons_self ..)) before position
  | case3 k l =>
    have hl : IsChunk l := all l (by simp)
    refine goOn (all k (List.mem_cons_self ..)) (fun before position => ?_) (single hl) before position
    have none := @outcomes_space_eq_nil before position l [] hl (Or.inl rfl) (Or.inr rfl)
    rw [List.append_nil] at none
    rwa [joined, List.intercalate_singleton]
  | case4 k l m rest connects ih =>
    have hk := all k (List.mem_cons_self ..)
    have tail : ∀ j ∈ m :: rest, IsChunk j := fun j hj =>
      all j (List.mem_cons_of_mem _ (List.mem_cons_of_mem _ hj))
    have edge := head?_joined_append (tail m (List.mem_cons_self ..)) rest []
    rw [List.append_nil] at edge
    obtain ⟨found, b, search, start, stop, word⟩ := exists_matchesFrom_connective connects edge
    rw [broken, if_pos connects, joined_cons_cons, joined_cons_cons, matchesFrom_chunk hk.solid, search,
      ← word]
    refine .connective hk start ?_
    rw [stop]
    exact ih (List.cons_ne_nil _ _) tail b _
  | case5 k l m rest other ih =>
    rw [broken, if_neg other]
    refine goOn (all k (List.mem_cons_self ..)) (fun before position => ?_)
      (ih (List.cons_ne_nil _ _) fun j hj => all j (List.mem_cons_of_mem _ hj)) before position
    rw [joined_cons_cons]
    exact outcomes_space_eq_nil (all l (by simp)) (Or.inr ⟨_, rfl⟩) (Or.inl other)

/-- A tidy condition under a head, its lines one behind the other. -/
theorem flatMap_conditionLines (head indent : List Char) {s : List Char} (h : Tidy s) :
    (conditionLines head s indent).flatMap ('\n' :: ·) =
      '\n' :: (head ++ ' ' :: broken indent (chunks s)) := by
  have laid := laysOut_broken indent (chunks_ne_nil s) (isChunk_of_mem_chunks h) none 0
  rw [joined, intercalate_chunks] at laid
  have first : conditionLines head s indent =
      (head ++ ' ' :: trim (firstPiece 0 s (Clause.connective.findAll s))) ::
        connectiveLines indent (Clause.connective.findAll s) := by
    rw [conditionLines]
    cases Clause.connective.findAll s <;> rfl
  rw [first, List.flatMap_cons, findAll_eq, trim_eq laid.tidy.first laid.tidy.last, ← laid.lines]
  simp only [List.append_assoc, List.cons_append]

/-! ## Parts of a condition -/

section

variable {indent : List Char} {ks ls : List (List Char)}

theorem broken_cons {k l : List Char} (other : ¬ Connects l) (ls : List (List Char)) :
    broken indent (k :: l :: ls) = k ++ ' ' :: broken indent (l :: ls) := by
  cases ls with
  | nil => rfl
  | cons m ls => rw [broken, if_neg other]

/-- Between chunks that are no connectives stands a space. -/
theorem broken_append (ks_ne : ks ≠ []) (ls_ne : ls ≠ []) (last : ∀ k ∈ ks.getLast?, ¬ Connects k)
    (first : ∀ l ∈ ls.head?, ¬ Connects l) :
    broken indent (ks ++ ls) = broken indent ks ++ ' ' :: broken indent ls := by
  obtain ⟨l, ls, rfl⟩ := List.exists_cons_of_ne_nil ls_ne
  have other : ¬ Connects l := first l rfl
  induction ks using broken.induct with
  | case1 => exact absurd rfl ks_ne
  | case2 k => exact broken_cons other ls
  | case3 k m =>
    have other_m : ¬ Connects m := last m rfl
    show broken indent (k :: m :: l :: ls) = _
    rw [broken_cons other_m, broken_cons other, broken, List.append_assoc]
    rfl
  | case4 k m n rest connects ih =>
    have tail := ih (List.cons_ne_nil _ _) last
    show broken indent (k :: m :: n :: (rest ++ l :: ls)) = _
    rw [List.cons_append] at tail
    rw [broken, if_pos connects, broken, if_pos connects, tail]
    simp only [List.append_assoc, List.cons_append]
  | case5 k m n rest other_m ih =>
    have tail := ih (List.cons_ne_nil _ _) last
    show broken indent (k :: m :: n :: (rest ++ l :: ls)) = _
    rw [List.cons_append, List.cons_append] at tail
    rw [broken_cons other_m, broken_cons other_m, tail, List.append_assoc]
    rfl

theorem exists_broken_cons (indent k : List Char) (ls : List (List Char)) :
    ∃ t, broken indent (k :: ls) = k ++ t := by
  unfold broken
  split
  · rename_i none
    cases none
  · rename_i single
    obtain ⟨rfl, -⟩ := List.cons.inj single
    exact ⟨[], (List.append_nil _).symm⟩
  · rename_i pair
    obtain ⟨rfl, -⟩ := List.cons.inj pair
    exact ⟨_, rfl⟩
  · rename_i more
    obtain ⟨rfl, -⟩ := List.cons.inj more
    split
    · exact ⟨_, rfl⟩
    · exact ⟨_, rfl⟩

/-- Chunks of which the last one is no connective are laid out as if nothing came behind. -/
theorem exists_broken_append (ks_ne : ks ≠ []) (last : ∀ k ∈ ks.getLast?, ¬ Connects k)
    (ls : List (List Char)) : ∃ t, broken indent (ks ++ ls) = broken indent ks ++ t := by
  induction ks using broken.induct with
  | case1 => exact absurd rfl ks_ne
  | case2 k => exact exists_broken_cons indent k ls
  | case3 k m =>
    have other : ¬ Connects m := last m rfl
    obtain ⟨t, tail⟩ := exists_broken_cons indent m ls
    refine ⟨t, ?_⟩
    show broken indent (k :: m :: ls) = _
    rw [broken_cons other, tail, broken, List.append_assoc]
    rfl
  | case4 k m n rest connects ih =>
    obtain ⟨t, tail⟩ := ih (List.cons_ne_nil _ _) last
    refine ⟨t, ?_⟩
    show broken indent (k :: m :: n :: (rest ++ ls)) = _
    rw [List.cons_append] at tail
    rw [broken, if_pos connects, broken, if_pos connects, tail]
    simp only [List.append_assoc, List.cons_append]
  | case5 k m n rest other ih =>
    obtain ⟨t, tail⟩ := ih (List.cons_ne_nil _ _) last
    refine ⟨t, ?_⟩
    show broken indent (k :: m :: n :: (rest ++ ls)) = _
    rw [List.cons_append, List.cons_append] at tail
    rw [broken_cons other, broken_cons other, tail, List.append_assoc]
    rfl

/-- Laying a condition out changes nothing but blanks where its connectives are in capitals. -/
theorem squeeze_broken (blank : ∀ c ∈ indent, isBlank c = true) (all : ∀ k ∈ ks, IsChunk k)
    (capitals : ∀ k ∈ ks, Connects k → k.map keywordCapital = k) (r : List Char) :
    squeeze (broken indent ks ++ r) = joined ks ++ squeeze r := by
  have space {k : List Char} {ks : List (List Char)} {s : List Char} (hk : IsChunk k)
      (same : squeeze s = joined (k :: ks) ++ squeeze r) :
      squeeze (' ' :: s) = ' ' :: (joined (k :: ks) ++ squeeze r) := by
    have edge : (joined (k :: ks) ++ squeeze r).head? ≠ some ' ' := by
      intro found
      have solid := head?_joined_append hk ks (squeeze r)
      rw [found] at solid
      cases solid
    rw [squeeze_cons, squeezeOnto, if_pos (by decide), same, if_neg edge]
  induction ks using broken.induct with
  | case1 => rfl
  | case2 k =>
    rw [broken, joined, List.intercalate_singleton]
    exact (all k (List.mem_cons_self ..)).tidy.squeeze_append r
  | case3 k l =>
    have both := (all k (by simp)).tidy.space (all l (by simp)).tidy
    rw [broken, joined_cons_cons, joined, List.intercalate_singleton]
    exact both.squeeze_append r
  | case4 k l m rest connects ih =>
    have hl := all l (by simp)
    have tail := ih (fun j hj => all j (List.mem_cons_of_mem _ (List.mem_cons_of_mem _ hj)))
      fun j hj => capitals j (List.mem_cons_of_mem _ (List.mem_cons_of_mem _ hj))
    have gap : ∀ c ∈ '\n' :: indent, isBlank c = true := by
      intro c hc
      rcases List.mem_cons.mp hc with rfl | hc
      · decide
      · exact blank c hc
    have lined := hl.tidy.squeeze_gap (' ' :: (broken indent (m :: rest) ++ r))
      (List.cons_ne_nil _ _) gap
    rw [space (all m (by simp)) tail] at lined
    rw [broken, if_pos connects, capitals l (by simp) connects, List.append_assoc,
      (all k (by simp)).tidy.squeeze_append, joined_cons_cons, joined_cons_cons]
    simp only [List.append_assoc, List.cons_append] at lined ⊢
    rw [lined]
  | case5 k l m rest other ih =>
    have tail := ih (fun j hj => all j (List.mem_cons_of_mem _ hj))
      fun j hj => capitals j (List.mem_cons_of_mem _ hj)
    have whole : joined (k :: l :: m :: rest) ++ squeeze r =
        k ++ ' ' :: (joined (l :: m :: rest) ++ squeeze r) := by
      rw [joined_cons_cons, List.append_assoc, List.cons_append]
    rw [broken_cons other, List.append_assoc, (all k (by simp)).tidy.squeeze_append,
      List.cons_append, space (all l (by simp)) tail, whole]

end

end QueryWorkbench.Sql
