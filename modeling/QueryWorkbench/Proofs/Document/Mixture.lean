/-
QueryWorkbench.Proofs.Document.Mixture — documents whose keys are spelled in two ways.

A mixture of two documents has the values that both have and takes each key from the one or the
other, at every depth. `ReadsBack` says that a reader finds a value in every mixture of two
documents. It goes from the parts of a document to the whole: an object is read field by field
(`holds_of_mixture`), whichever spelling each of its keys has, and lists item by item
(`readsBack_list`).
-/
import Mathlib.Data.List.Nodup
import QueryWorkbench.Document.Reader

namespace QueryWorkbench

namespace Json

mutual

/-- A document with the values of two documents that differ in their keys only, each key being
the one or the other. -/
inductive Mixture : Json → Json → Json → Prop
  | null : Mixture null null null
  | bool (b : Bool) : Mixture (bool b) (bool b) (bool b)
  | int (n : Int) : Mixture (int n) (int n) (int n)
  | num (x : Float) : Mixture (num x) (num x) (num x)
  | str (s : String) : Mixture (str s) (str s) (str s)
  | arr {as bs cs : List Json} : MixtureItems as bs cs → Mixture (arr as) (arr bs) (arr cs)
  | obj {as bs cs : List (String × Json)} :
      MixtureMembers as bs cs → Mixture (obj as) (obj bs) (obj cs)

/-- The items of lists, one by one. -/
inductive MixtureItems : List Json → List Json → List Json → Prop
  | nil : MixtureItems [] [] []
  | cons {a b c : Json} {as bs cs : List Json} :
      Mixture a b c → MixtureItems as bs cs → MixtureItems (a :: as) (b :: bs) (c :: cs)

/-- The members of objects, one by one. -/
inductive MixtureMembers :
    List (String × Json) → List (String × Json) → List (String × Json) → Prop
  | nil : MixtureMembers [] [] []
  | cons {i j k : String} {a b c : Json} {as bs cs : List (String × Json)} :
      k = i ∨ k = j → Mixture a b c → MixtureMembers as bs cs →
      MixtureMembers ((i, a) :: as) ((j, b) :: bs) ((k, c) :: cs)

end

mutual

/-- A document is the mixture of itself with itself. -/
theorem Mixture.refl : (v : Json) → Mixture v v v
  | .null => .null
  | .bool b => .bool b
  | .int n => .int n
  | .num x => .num x
  | .str s => .str s
  | .arr items => .arr (MixtureItems.refl items)
  | .obj members => .obj (MixtureMembers.refl members)

theorem MixtureItems.refl : (items : List Json) → MixtureItems items items items
  | [] => .nil
  | v :: rest => .cons (Mixture.refl v) (MixtureItems.refl rest)

theorem MixtureMembers.refl :
    (members : List (String × Json)) → MixtureMembers members members members
  | [] => .nil
  | (_, v) :: rest => .cons (.inl rfl) (Mixture.refl v) (MixtureMembers.refl rest)

end

mutual

/-- A document can be mixed with itself in one way only. -/
theorem Mixture.eq_of_self : {v w : Json} → Mixture v v w → w = v
  | .null, _, .null => rfl
  | .bool _, _, .bool _ => rfl
  | .int _, _, .int _ => rfl
  | .num _, _, .num _ => rfl
  | .str _, _, .str _ => rfl
  | .arr _, _, .arr h => congrArg arr h.eq_of_self
  | .obj _, _, .obj h => congrArg obj h.eq_of_self

theorem MixtureItems.eq_of_self : {l m : List Json} → MixtureItems l l m → m = l
  | [], _, .nil => rfl
  | _ :: _, _, .cons first rest => by rw [first.eq_of_self, rest.eq_of_self]

theorem MixtureMembers.eq_of_self :
    {l m : List (String × Json)} → MixtureMembers l l m → m = l
  | [], _, .nil => rfl
  | _ :: _, _, .cons key first rest => by
    rw [key.elim id id, first.eq_of_self, rest.eq_of_self]

end

end Json

namespace Document

open Json

variable {α : Type} {n : Nat} {a b : Json}

/-! ## Reading back -/

/-- A reader finds a value in every mixture of two documents that is at most `n` deep. -/
def ReadsBack (n : Nat) (read : Reader α) (a b : Json) (x : α) : Prop :=
  ∀ v, Mixture a b v → v.depth ≤ n → read v = .valid x

/-- What is read from a document as it stands is read from its mixture with itself. -/
theorem readsBack_self {read : Reader α} {x : α} (h : read a = .valid x) : ReadsBack n read a a x := by
  intro v mixed _
  rw [mixed.eq_of_self, h]

theorem readsBack_text (s : String) : ReadsBack n readText (.str s) (.str s) s := readsBack_self rfl

theorem readsBack_optionalText (s : Option String) :
    ReadsBack n (nullable readText) (.ofOption s) (.ofOption s) s :=
  readsBack_self (by cases s <;> rfl)

/-- A value is read back from its name, when the names tell the values apart. -/
theorem readsBack_choice {name : α → String} {choices : List α} (different : (choices.map name).Nodup)
    {x : α} (listed : x ∈ choices) :
    ReadsBack n (readChoice name choices) (.str (name x)) (.str (name x)) x := by
  have found : choices.find? (fun y => name y == name x) = some x := by
    cases h : choices.find? (fun y => name y == name x) with
    | none => exact absurd (List.find?_eq_none.mp h x listed) (by simp)
    | some y =>
      have same : name y = name x := by simpa using List.find?_some h
      rw [List.inj_on_of_nodup_map different (List.mem_of_find?_eq_some h) listed same]
  exact readsBack_self (by rw [readChoice, found])

/-- What is not null is read as what is there. -/
theorem ReadsBack.nullable {read : Reader α} {x : α} (h : ReadsBack n read a b x)
    (there : a ≠ .null) : ReadsBack n (nullable read) a b (some x) := by
  intro v mixed deep
  have here : v ≠ .null := by
    rintro rfl
    cases mixed
    exact there rfl
  have found : Document.nullable read v = some <$> read v := by
    cases v <;> first | exact absurd rfl here | rfl
  rw [found, h v mixed deep, Validated.map_valid]

theorem readsBack_null {read : Reader α} :
    ReadsBack n (nullable read) .null .null none := readsBack_self rfl

theorem readsBack_optionalChoice {name : α → String} {choices : List α}
    (different : (choices.map name).Nodup) {x : Option α} (listed : ∀ a ∈ x, a ∈ choices) :
    ReadsBack n (nullable (readChoice name choices)) (.ofOption (x.map name))
      (.ofOption (x.map name)) x := by
  cases x with
  | none => exact readsBack_null
  | some a => exact (readsBack_choice different (listed a rfl)).nullable nofun

/-- A list is read back item by item. -/
theorem readsBack_list {read : Reader α} {first second : α → Json} (l : List α)
    (each : ∀ x ∈ l, ReadsBack n read (first x) (second x) x) :
    ReadsBack n (readList read) (.arr (l.map first)) (.arr (l.map second)) l := by
  have items : ∀ (l : List α) (position : Nat) (cs : List Json),
      (∀ x ∈ l, ReadsBack n read (first x) (second x) x) →
      MixtureItems (l.map first) (l.map second) cs → depthItems cs ≤ n →
      readItems read position cs = .valid l := by
    intro l
    induction l with
    | nil =>
      intro position cs _ mixed _
      cases mixed
      rfl
    | cons x l ih =>
      intro position cs each mixed deep
      obtain ⟨⟩ | ⟨one, more⟩ := mixed
      rw [depthItems, Nat.max_le] at deep
      rw [readItems, each x (List.mem_cons_self ..) _ one deep.1,
        ih _ _ (fun y hy => each y (List.mem_cons_of_mem _ hy)) more deep.2]
      rfl
  intro v mixed deep
  cases mixed with
  | arr mixed =>
    rw [depth] at deep
    exact items l 0 _ each mixed (by omega)

/-! ## Fields of objects -/

/-- Two fields that no key can be taken for both of. -/
def FieldName.Apart (f g : FieldName) : Prop :=
  f.camel ≠ g.camel ∧ f.camel ≠ g.snake ∧ f.snake ≠ g.camel ∧ f.snake ≠ g.snake

instance (f g : FieldName) : Decidable (f.Apart g) := inferInstanceAs (Decidable (_ ∧ _))

/-- A field is there with a mixture of two values, under one of its spellings. -/
def Holds (n : Nat) (members : Members) (f : FieldName) (a b : Json) : Prop :=
  ∃ v, f.find? members = some v ∧ Mixture a b v ∧ v.depth ≤ n

theorem Holds.optional {members : Members} {f : FieldName} (h : Holds n members f a b)
    {read : Reader α} {x : α} (back : ReadsBack n read a b x) (absent : α) :
    optional f read absent members = .valid x := by
  obtain ⟨v, found, mixed, deep⟩ := h
  rw [Document.optional, found]
  show (read v).under _ = _
  rw [back v mixed deep, Validated.under_valid]

theorem Holds.required {members : Members} {f : FieldName} (h : Holds n members f a b)
    {read : Reader α} {x : α} (back : ReadsBack n read a b x) :
    required f read members = .valid x := by
  obtain ⟨v, found, mixed, deep⟩ := h
  rw [Document.required, found]
  show (read v).under _ = _
  rw [back v mixed deep, Validated.under_valid]

/-- The field that comes first is found under its key. -/
theorem FieldName.find?_first {f : FieldName} {style : KeyStyle} {v : Json} {members : Members}
    (later : Assoc.get? f.camel members = none) :
    f.find? ((f.spelled style, v) :: members) = some v := by
  cases style with
  | camel => simp [FieldName.find?, FieldName.spelled, Assoc.get?]
  | snake =>
    by_cases same : f.snake = f.camel <;>
      simp [FieldName.find?, FieldName.spelled, Assoc.get?, same, later]

/-- The key of another field is passed over. -/
theorem FieldName.Apart.find?_cons {f g : FieldName} (apart : g.Apart f) (style : KeyStyle)
    (v : Json) (members : Members) :
    f.find? ((g.spelled style, v) :: members) = f.find? members := by
  obtain ⟨cc, cs, sc, ss⟩ := apart
  cases style <;> simp [FieldName.find?, FieldName.spelled, Assoc.get?, *]

/-- A mixed key is one of the spellings of the field. -/
theorem FieldName.exists_spelled {f : FieldName} {s t : KeyStyle} {k : String}
    (key : k = f.spelled s ∨ k = f.spelled t) : ∃ style, k = f.spelled style :=
  key.elim (fun h => ⟨s, h⟩) fun h => ⟨t, h⟩

/-- The short spelling of a field is none of the keys of other fields. -/
theorem FieldName.get?_camel_eq_none {f : FieldName} {s t : KeyStyle}
    {entries : List (FieldName × Json × Json)} {members : Members}
    (apart : ∀ e ∈ entries, f.Apart e.1)
    (mixed : MixtureMembers (entries.map fun e => (e.1.spelled s, e.2.1))
      (entries.map fun e => (e.1.spelled t, e.2.2)) members) :
    Assoc.get? f.camel members = none := by
  induction entries generalizing members with
  | nil =>
    cases mixed
    rfl
  | cons e entries ih =>
    cases mixed with
    | cons key _ more =>
      obtain ⟨style, rfl⟩ := FieldName.exists_spelled key
      obtain ⟨cc, cs, -, -⟩ := apart e (List.mem_cons_self ..)
      have other : e.1.spelled style ≠ f.camel := by
        cases style
        · exact cc.symm
        · exact cs.symm
      rw [Assoc.get?, if_neg other]
      exact ih (fun e he => apart e (List.mem_cons_of_mem _ he)) more

/-- The fields of a mixed object are all there, each under one of its spellings. -/
theorem holds_of_mixture {s t : KeyStyle} {entries : List (FieldName × Json × Json)}
    {members : Members} (apart : (entries.map (·.1)).Pairwise FieldName.Apart)
    (mixed : MixtureMembers (entries.map fun e => (e.1.spelled s, e.2.1))
      (entries.map fun e => (e.1.spelled t, e.2.2)) members)
    (deep : depthMembers members ≤ n) : ∀ e ∈ entries, Holds n members e.1 e.2.1 e.2.2 := by
  induction entries generalizing members with
  | nil => exact nofun
  | cons e entries ih =>
    rw [List.map_cons, List.pairwise_cons] at apart
    cases mixed with
    | @cons _ _ k _ _ v _ _ rest key one more =>
      obtain ⟨style, rfl⟩ := FieldName.exists_spelled key
      rw [depthMembers, Nat.max_le] at deep
      have later := ih apart.2 more deep.2
      intro f hf
      rcases List.mem_cons.mp hf with rfl | hf
      · refine ⟨v, FieldName.find?_first (FieldName.get?_camel_eq_none ?_ more), one, deep.1⟩
        exact fun e he => apart.1 _ (List.mem_map_of_mem he)
      · obtain ⟨w, found, mixed, deep⟩ := later f hf
        have other : e.1.Apart f.1 := apart.1 _ (List.mem_map_of_mem hf)
        exact ⟨w, by rw [other.find?_cons, found], mixed, deep⟩

/-- An object is read back when its fields are, and these are less deep. -/
theorem readsBack_object {m : Nat} {read : Members → Validated α} {x : α} {s t : KeyStyle}
    (entries : List (FieldName × Json × Json)) (deeper : m ≤ n + 1)
    (apart : (entries.map (·.1)).Pairwise FieldName.Apart)
    (fields : ∀ members, (∀ e ∈ entries, Holds n members e.1 e.2.1 e.2.2) →
      read members = .valid x) :
    ReadsBack m (readObject read) (.obj (entries.map fun e => (e.1.spelled s, e.2.1)))
      (.obj (entries.map fun e => (e.1.spelled t, e.2.2))) x := by
  intro v mixed deep
  cases mixed with
  | obj mixed =>
    rw [depth] at deep
    exact fields _ (holds_of_mixture apart mixed (by omega))

end Document

end QueryWorkbench
