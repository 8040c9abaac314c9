import NativeContracts.Modexp.Header
import NativeContracts.Routine.Exponentiation
import NativeContracts.Proofs.Bytes

namespace NativeContracts.Modexp

open Saturating (limit)

-- The lengths as they are declared, without a bound, in the input followed by endless zeros.
structure Lengths where
  base : Nat
  exponent : Nat
  modulus : Nat
deriving DecidableEq

def Lengths.read (input : Bytes) : Lengths where
  base := (input.window 0 32).value
  exponent := (input.window 32 32).value
  modulus := (input.window 64 32).value

-- A multiplication is as long as the longer one of base and modulus.
def Lengths.longest (lengths : Lengths) : Nat := max lengths.base lengths.modulus

-- The operands stand behind the lengths in the same order.
def baseOperand (input : Bytes) : Nat := (input.window 96 (Lengths.read input).base).value

def exponentOperand (input : Bytes) : Nat :=
  (input.window (96 + (Lengths.read input).base) (Lengths.read input).exponent).value

def modulusOperand (input : Bytes) : Nat :=
  (input.window (96 + (Lengths.read input).base + (Lengths.read input).exponent)
    (Lengths.read input).modulus).value

-- What the first bytes of the exponent make, at most 32 of them.
def exponentLead (input : Bytes) : Nat :=
  (input.window (96 + (Lengths.read input).base) (min (Lengths.read input).exponent 32)).value

theorem exponentLead_lt_pow (input : Bytes) :
    exponentLead input < 256 ^ min (Lengths.read input).exponent 32 := by
  rw [exponentLead, Bytes.value_window]
  exact Bytes.valueAt_lt _ _ _

theorem exponentLead_lt (input : Bytes) : exponentLead input < 2 ^ 256 := by
  have hpower : 256 ^ min (Lengths.read input).exponent 32 ≤ 256 ^ 32 :=
    Nat.pow_le_pow_right (by decide) (Nat.min_le_right _ _)
  exact (exponentLead_lt_pow input).trans_le (hpower.trans (by decide))

-- Of a long exponent, the lead stands above all bytes after the first 32.
theorem exponentOperand_eq (input : Bytes) (h : 32 ≤ (Lengths.read input).exponent) :
    exponentOperand input = exponentLead input * 256 ^ ((Lengths.read input).exponent - 32) +
      input.valueAt (96 + (Lengths.read input).base + 32) ((Lengths.read input).exponent - 32) := by
  simp only [exponentOperand, exponentLead, Bytes.value_window, Nat.min_eq_right h]
  rw [← Bytes.valueAt_add, Nat.add_sub_of_le h]

theorem exponentOperand_of_le (input : Bytes) (h : (Lengths.read input).exponent ≤ 32) :
    exponentOperand input = exponentLead input := by
  simp only [exponentOperand, exponentLead, Nat.min_eq_left h]

namespace Header

@[simp] theorem toNat_read_baseLength (input : Bytes) :
    (read input).baseLength.toNat = min (Lengths.read input).base limit := by
  simp [read, Lengths.read, Bytes.value_window]

@[simp] theorem toNat_read_exponentLength (input : Bytes) :
    (read input).exponentLength.toNat = min (Lengths.read input).exponent limit := by
  simp [read, Lengths.read, Bytes.value_window]

@[simp] theorem toNat_read_modulusLength (input : Bytes) :
    (read input).modulusLength.toNat = min (Lengths.read input).modulus limit := by
  simp [read, Lengths.read, Bytes.value_window]

-- Cutting the length of the base moves the exponent only where neither place has data.
theorem read_head (input : Bytes)
    (h : (Lengths.read input).base ≤ limit ∨ input.length ≤ limit) :
    (read input).head = exponentLead input := by
  have hcount : min (min (Lengths.read input).exponent limit) 32 =
      min (Lengths.read input).exponent 32 := by
    simp only [limit]
    omega
  have hread : (read input).head =
      if min (Lengths.read input).base limit < input.length - 96
      then input.valueAt (96 + min (Lengths.read input).base limit)
        (min (Lengths.read input).exponent 32)
      else 0 := by
    rw [← hcount, ← toNat_read_baseLength, ← toNat_read_exponentLength, ← Bytes.valueAt_drop,
      ← List.length_drop]
    rfl
  rw [hread, exponentLead, Bytes.value_window]
  split
  · rename_i hdata
    have hbase : (Lengths.read input).base ≤ limit := by omega
    rw [Nat.min_eq_left hbase]
  · rename_i hnone
    refine (Bytes.valueAt_of_length_le _ _ _ ?_).symm
    omega

end Header

-- The routine cuts the same bytes out of a padded word.
theorem exponentHead_eq (input : Bytes) :
    exponentHead input (Lengths.read input).base (Lengths.read input).exponent =
      exponentLead input := by
  simp only [exponentHead, exponentLead, Bytes.window_drop]
  rw [Bytes.take_window _ _ _ _ (Nat.min_le_right _ _)]

end NativeContracts.Modexp
