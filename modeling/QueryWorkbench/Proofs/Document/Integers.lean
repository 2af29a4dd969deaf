/-
QueryWorkbench.Proofs.Document.Integers — which values are read as integers.

`readInteger_eq_valid_iff` says for every JSON value which integer it is read as, if any: an integer
as itself, a truth value as zero or one, a double as the number that it is, and a text as its
numeral. A double has to be finite, equal to an integer and within the range of a signed word; the
numeral may have 4300 digits. Everything else is a fault, and a fault is what makes an update fail.

The double is compared with the integer as a rational number, `valueOfBits`, which is read off its
sign, mantissa and exponent. So the statement does not go through the division by which the reader
looks for a fraction (`whole?_eq_some_iff`).
-/
import Mathlib.Algebra.Order.Field.Power
import Mathlib.Data.Rat.Cast.Order
import Mathlib.Tactic.FieldSimp
import Mathlib.Tactic.NormNum
import QueryWorkbench.Document.Reader

namespace QueryWorkbench

open Text

namespace Decimal

/-- The magnitude as a rational number. -/
def Binary.value (b : Binary) : ℚ := b.mantissa * 2 ^ b.exponent

/-- The number that the bits of a finite double stand for. -/
def valueOfBits (bits : UInt64) : ℚ :=
  if bits >>> 63 = 1 then -(Binary.ofBits bits).value else (Binary.ofBits bits).value

theorem Binary.value_nonneg (b : Binary) : 0 ≤ b.value :=
  mul_nonneg (Nat.cast_nonneg _) (zpow_nonneg (by norm_num) _)

theorem abs_valueOfBits (bits : UInt64) : |valueOfBits bits| = (Binary.ofBits bits).value := by
  have nonneg := (Binary.ofBits bits).value_nonneg
  rw [valueOfBits]
  split
  · rw [abs_neg, abs_of_nonneg nonneg]
  · exact abs_of_nonneg nonneg

/-- A magnitude is a natural number exactly if nothing is left of the division by its unit. -/
theorem Binary.whole?_eq_some_iff {b : Binary} {n : Nat} : b.whole? = some n ↔ (n : ℚ) = b.value := by
  obtain ⟨mantissa, exponent, low⟩ := b
  have unit_pos (k : Nat) : 0 < 2 ^ k := Nat.two_pow_pos k
  cases exponent with
  | ofNat k =>
    have value : (Binary.mk mantissa (.ofNat k) low).value = (mantissa * 2 ^ k : Nat) := by
      simp [Binary.value]
    have whole : (Binary.mk mantissa (.ofNat k) low).whole? = some (mantissa * 2 ^ k) := rfl
    rw [value, whole, Option.some.injEq, Nat.cast_inj, eq_comm]
  | negSucc k =>
    have value : (Binary.mk mantissa (.negSucc k) low).value = mantissa / (2 ^ (k + 1) : Nat) := by
      simp [Binary.value, zpow_negSucc, div_eq_mul_inv]
    have whole : (Binary.mk mantissa (.negSucc k) low).whole? =
        if mantissa % 2 ^ (k + 1) = 0 then some (mantissa / 2 ^ (k + 1)) else none := rfl
    have unit_ne : ((2 ^ (k + 1) : Nat) : ℚ) ≠ 0 := Nat.cast_ne_zero.mpr (unit_pos _).ne'
    rw [value, whole, eq_div_iff unit_ne, ← Nat.cast_mul, Nat.cast_inj]
    constructor
    · intro h
      split at h
      · rename_i divides
        rw [← Option.some.inj h, Nat.div_mul_cancel (Nat.dvd_of_mod_eq_zero divides)]
      · cases h
    · rintro rfl
      rw [Nat.mul_mod_left, if_pos rfl, Nat.mul_div_cancel _ (unit_pos _)]

end Decimal

namespace Document

open Decimal

/-- A double is read as the integer that it is. -/
theorem integerOfBits_eq_ok_iff {bits : UInt64} {n : Int} : integerOfBits bits = .ok n ↔
    isFinite bits = true ∧ n.natAbs < 2 ^ 63 ∧ (n : ℚ) = valueOfBits bits := by
  have sized (m : Nat) : (signed (decide (bits >>> 63 = 1)) m).natAbs = m := by
    rw [signed]
    split <;> simp
  have valued (m : Nat) (whole : (m : ℚ) = (Binary.ofBits bits).value) :
      ((signed (decide (bits >>> 63 = 1)) m : Int) : ℚ) = valueOfBits bits := by
    rw [signed, valueOfBits, ← whole]
    split <;> simp_all
  rw [integerOfBits]
  constructor
  · intro h
    split at h
    · rename_i finite
      split at h
      · rename_i m found
        split at h
        · rename_i small
          obtain rfl := Except.ok.inj h
          exact ⟨finite, (sized m).symm ▸ small, valued m (Binary.whole?_eq_some_iff.mp found)⟩
        · cases h
      · cases h
    · cases h
  · rintro ⟨finite, small, value⟩
    have whole : ((n.natAbs : Nat) : ℚ) = (Binary.ofBits bits).value := by
      rw [Nat.cast_natAbs, Int.cast_abs, value, abs_valueOfBits]
    have same : signed (decide (bits >>> 63 = 1)) n.natAbs = n :=
      Int.cast_injective ((valued _ whole).trans value.symm)
    rw [if_pos finite, Binary.whole?_eq_some_iff.mpr whole]
    simp only [same]
    exact if_pos small

/-- A text is read as the integer that its numeral stands for. -/
theorem integerOfText_eq_ok_iff {s : String} {n : Int} : integerOfText s = .ok n ↔
    integer? s.toList = some n ∧ n.natAbs < numeralLimit := by
  rw [integerOfText]
  cases integer? s.toList with
  | none => exact ⟨nofun, nofun⟩
  | some m =>
    simp only [Option.some.injEq]
    constructor
    · intro h
      split at h
      · rename_i small
        obtain rfl := Except.ok.inj h
        exact ⟨rfl, small⟩
      · cases h
    · rintro ⟨rfl, small⟩
      exact if_pos small

/-- The integers that values stand for. -/
inductive StandsFor : Json → Int → Prop
  | int (n : Int) : StandsFor (.int n) n
  | bool (b : Bool) : StandsFor (.bool b) (if b then 1 else 0)
  | num {x : Float} {n : Int} (finite : isFinite x.toBits = true) (small : n.natAbs < 2 ^ 63)
      (value : (n : ℚ) = valueOfBits x.toBits) : StandsFor (.num x) n
  | str {s : String} {n : Int} (numeral : integer? s.toList = some n)
      (small : n.natAbs < numeralLimit) : StandsFor (.str s) n

/-- A value is read as the integer that it stands for, and every other value is at fault. -/
theorem readInteger_eq_valid_iff {v : Json} {n : Int} :
    readInteger v = .valid n ↔ StandsFor v n := by
  have checked {e : Except Fault Int} : Validated.ofExcept e = .valid n ↔ e = .ok n := by
    cases e with
    | ok m => simp [Validated.ofExcept]
    | error f => exact ⟨nofun, nofun⟩
  constructor
  · intro h
    cases v with
    | int m =>
      obtain rfl : m = n := Validated.valid.inj h
      exact .int m
    | bool b =>
      obtain rfl : (if b then 1 else 0) = n := Validated.valid.inj h
      exact .bool b
    | num x =>
      obtain ⟨finite, small, value⟩ := integerOfBits_eq_ok_iff.mp (checked.mp h)
      exact .num finite small value
    | str s =>
      obtain ⟨numeral, small⟩ := integerOfText_eq_ok_iff.mp (checked.mp h)
      exact .str numeral small
    | null | arr | obj => cases h
  · intro h
    cases h with
    | int | bool => rfl
    | num finite small value => exact checked.mpr (integerOfBits_eq_ok_iff.mpr ⟨finite, small, value⟩)
    | str numeral small => exact checked.mpr (integerOfText_eq_ok_iff.mpr ⟨numeral, small⟩)

end Document

end QueryWorkbench
