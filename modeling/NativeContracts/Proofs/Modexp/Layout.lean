import NativeContracts.Proofs.Modexp.Header
import Mathlib.Algebra.BigOperators.Intervals

namespace NativeContracts

namespace Bytes

-- The bytes followed by endless zeros.
def extended (bytes : Bytes) (i : ℕ) : UInt8 := bytes.getD i 0

-- The number that a stretch of an endless string makes, with its highest digit first.
def bigEndian (string : ℕ → UInt8) (start length : ℕ) : ℕ :=
  ∑ i ∈ Finset.range length, (string (start + i)).toNat * 256 ^ (length - 1 - i)

theorem value_eq_bigEndian (bytes : Bytes) :
    bytes.value = bigEndian bytes.extended 0 bytes.length := by
  induction bytes with
  | nil => rfl
  | cons byte rest ih =>
      have htail : ∀ i ∈ Finset.range rest.length,
          (extended (byte :: rest) (0 + (i + 1))).toNat * 256 ^ (rest.length + 1 - 1 - (i + 1)) =
            (extended rest (0 + i)).toNat * 256 ^ (rest.length - 1 - i) := by
        intro i _
        have hplace : rest.length + 1 - 1 - (i + 1) = rest.length - 1 - i := by omega
        rw [hplace, Nat.zero_add, Nat.zero_add, extended, extended, List.getD_cons_succ]
      rw [value_cons, ih, bigEndian, bigEndian, List.length_cons, Finset.sum_range_succ',
        Finset.sum_congr rfl htail, Nat.add_comm]
      simp [extended]

-- What is read at a place of the bytes is the number that stands there in the endless string.
theorem valueAt_eq_bigEndian (bytes : Bytes) (start length : ℕ) :
    bytes.valueAt start length = bigEndian bytes.extended start length := by
  rw [← value_window, value_eq_bigEndian, length_window]
  refine Finset.sum_congr rfl fun i hi => ?_
  have hin : i < (bytes.window start length).length := by simpa using hi
  rw [Nat.zero_add, extended, extended, List.getD_eq_getElem _ _ hin, getElem_window]

-- A text between two others is read as it is.
theorem valueAt_between (before text after : Bytes) :
    valueAt (before ++ text ++ after) before.length text.length = text.value := by
  rw [valueAt_of_le_length _ _ _ (by simp), part]
  simp

end Bytes

namespace Modexp

open Saturating (limit)

-- A call with these operands: their lengths first, and then the operands in the same order.
def layout (base exponent modulus : Bytes) : Bytes :=
  Bytes.ofNat 32 base.length ++ Bytes.ofNat 32 exponent.length ++ Bytes.ofNat 32 modulus.length ++
    base ++ exponent ++ modulus

section Layout

variable (base exponent modulus rest : Bytes)

theorem length_layout : (layout base exponent modulus).length =
    96 + base.length + exponent.length + modulus.length := by
  simp only [layout, List.length_append, Bytes.length_ofNat]

variable {base exponent modulus}

theorem read_layout (h : (layout base exponent modulus).length < 2 ^ 63) :
    Lengths.read (layout base exponent modulus ++ rest) =
      ⟨base.length, exponent.length, modulus.length⟩ := by
  rw [length_layout] at h
  have hword : ∀ n, n < 2 ^ 63 → (Bytes.ofNat 32 n).value = n := by
    intro n hn
    rw [Bytes.value_ofNat]
    exact Nat.mod_eq_of_lt (by omega)
  have hbase := Bytes.valueAt_between [] (Bytes.ofNat 32 base.length)
    (Bytes.ofNat 32 exponent.length ++ Bytes.ofNat 32 modulus.length ++ base ++ exponent ++ modulus
      ++ rest)
  have hexponent := Bytes.valueAt_between (Bytes.ofNat 32 base.length)
    (Bytes.ofNat 32 exponent.length)
    (Bytes.ofNat 32 modulus.length ++ base ++ exponent ++ modulus ++ rest)
  have hmodulus := Bytes.valueAt_between
    (Bytes.ofNat 32 base.length ++ Bytes.ofNat 32 exponent.length)
    (Bytes.ofNat 32 modulus.length) (base ++ exponent ++ modulus ++ rest)
  rw [hword _ (by omega)] at hbase hexponent hmodulus
  simp only [Lengths.read, layout, Bytes.value_window, Lengths.mk.injEq, List.nil_append,
    List.append_assoc, List.length_nil, List.length_append, Bytes.length_ofNat]
    at hbase hexponent hmodulus ⊢
  exact ⟨hbase, hexponent, hmodulus⟩

theorem exponentLead_layout (h : (layout base exponent modulus).length < 2 ^ 63) :
    exponentLead (layout base exponent modulus ++ rest) = Bytes.value (exponent.take 32) := by
  have hlead := Bytes.valueAt_between
    (Bytes.ofNat 32 base.length ++ Bytes.ofNat 32 exponent.length ++
      Bytes.ofNat 32 modulus.length ++ base)
    (exponent.take 32) (exponent.drop 32 ++ modulus ++ rest)
  rw [exponentLead, read_layout rest h, Bytes.value_window, ← hlead]
  simp only [layout, List.length_append, Bytes.length_ofNat, List.length_take, List.append_assoc,
    Nat.min_comm, ← Nat.add_assoc, Nat.reduceAdd]
  rw [← List.append_assoc (exponent.take 32) (exponent.drop 32), List.take_append_drop]

end Layout

section Endless

variable (input : Bytes)

theorem read_eq_bigEndian : Lengths.read input =
    ⟨Bytes.bigEndian input.extended 0 32, Bytes.bigEndian input.extended 32 32,
      Bytes.bigEndian input.extended 64 32⟩ := by
  simp only [Lengths.read, Bytes.value_window, Bytes.valueAt_eq_bigEndian]

theorem exponentLead_eq_bigEndian : exponentLead input =
    Bytes.bigEndian input.extended (96 + (Lengths.read input).base)
      (min (Lengths.read input).exponent 32) := by
  simp only [exponentLead, Bytes.value_window, Bytes.valueAt_eq_bigEndian]

end Endless

-- The header has the lengths that an endless input declares, each cut to 64 bits, and the head of
-- the exponent from where the length of the base puts it before it is cut. Of an input with all of
-- its operands it has what they are, whatever follows them.
theorem header_reads_endless_input :
    (∀ input : Bytes, input.length < 2 ^ 63 →
      let string := input.extended
      let base := Bytes.bigEndian string 0 32
      let exponent := Bytes.bigEndian string 32 32
      let modulus := Bytes.bigEndian string 64 32
      let header := Header.read input
      header.baseLength.toNat = min base (2 ^ 64 - 1) ∧
        header.exponentLength.toNat = min exponent (2 ^ 64 - 1) ∧
        header.modulusLength.toNat = min modulus (2 ^ 64 - 1) ∧
        header.head = Bytes.bigEndian string (96 + base) (min exponent 32) ∧
        header.head < 256 ^ min exponent 32) ∧
      ∀ base exponent modulus rest : Bytes,
        (layout base exponent modulus ++ rest).length < 2 ^ 63 →
        let header := Header.read (layout base exponent modulus ++ rest)
        header.baseLength.toNat = base.length ∧ header.exponentLength.toNat = exponent.length ∧
          header.modulusLength.toNat = modulus.length ∧
          header.head = Bytes.value (exponent.take 32) := by
  have hlimit : limit = 2 ^ 64 - 1 := rfl
  constructor
  · intro input h string base exponent modulus header
    have hlengths : Lengths.read input = ⟨base, exponent, modulus⟩ := read_eq_bigEndian input
    have hhead : header.head = exponentLead input :=
      Header.read_head input (.inr (by simp only [limit]; omega))
    refine ⟨?_, ?_, ?_, ?_, ?_⟩
    · simp only [header, Header.toNat_read_baseLength, hlengths, hlimit]
    · simp only [header, Header.toNat_read_exponentLength, hlengths, hlimit]
    · simp only [header, Header.toNat_read_modulusLength, hlengths, hlimit]
    · rw [hhead, exponentLead_eq_bigEndian, hlengths]
    · have hlt := exponentLead_lt_pow input
      rwa [← hhead, hlengths] at hlt
  · intro base exponent modulus rest h header
    have hlength : (layout base exponent modulus).length < 2 ^ 63 := by
      rw [List.length_append] at h
      omega
    have hfits := length_layout base exponent modulus
    have hlengths := read_layout rest hlength
    refine ⟨?_, ?_, ?_, ?_⟩
    · simp only [header, Header.toNat_read_baseLength, hlengths, limit]
      omega
    · simp only [header, Header.toNat_read_exponentLength, hlengths, limit]
      omega
    · simp only [header, Header.toNat_read_modulusLength, hlengths, limit]
      omega
    · rw [Header.read_head _ (.inr (by simp only [limit]; omega)), exponentLead_layout rest hlength]

-- An exponent of three bytes of which the input has one, with a modulus length that is cut; and an
-- exponent of two bytes that is all there.
theorem cut_exponent_read_with_zeros :
    let cut := Bytes.ofNat 32 0 ++ Bytes.ofNat 32 3 ++ Bytes.ofNat 32 (2 ^ 64) ++ [1]
    let whole := layout [2] [0, 1] [7] ++ [9]
    (Header.read cut).modulusLength.toNat = 2 ^ 64 - 1 ∧ (Header.read cut).head = 2 ^ 16 ∧
      (Header.read whole).exponentLength.toNat = 2 ∧ (Header.read whole).head = 1 := by
  intro cut whole
  obtain ⟨hendless, hlayout⟩ := header_reads_endless_input
  obtain ⟨-, -, hmodulus, hhead, -⟩ := hendless cut (by decide)
  obtain ⟨-, hexponent, -, hhead'⟩ := hlayout [2] [0, 1] [7] [9] (by decide)
  have hlength : Bytes.bigEndian cut.extended 64 32 = 2 ^ 64 := by decide +kernel
  have hlead : Bytes.bigEndian cut.extended (96 + Bytes.bigEndian cut.extended 0 32)
      (min (Bytes.bigEndian cut.extended 32 32) 32) = 2 ^ 16 := by
    decide +kernel
  rw [hlength] at hmodulus
  exact ⟨hmodulus, hhead.trans hlead, hexponent, hhead'⟩

end Modexp

end NativeContracts
