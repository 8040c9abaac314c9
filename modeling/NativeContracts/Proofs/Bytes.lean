import NativeContracts.Bytes
import Mathlib.Data.List.GetD
import Mathlib.Tactic.Ring

namespace NativeContracts.Bytes

theorem value_nil : value [] = 0 := rfl

-- Any start of the fold only adds what it stands for in front of the digits.
private theorem foldl_eq (bytes : Bytes) (acc : Nat) :
    bytes.foldl (fun acc byte => acc * 256 + byte.toNat) acc =
      acc * 256 ^ bytes.length + value bytes := by
  induction bytes generalizing acc with
  | nil => simp [value]
  | cons byte rest ih =>
      simp only [value, List.foldl_cons, List.length_cons] at ih ⊢
      rw [ih, ih (0 * 256 + byte.toNat)]
      ring

theorem value_cons (byte : UInt8) (rest : Bytes) :
    value (byte :: rest) = byte.toNat * 256 ^ rest.length + value rest := by
  have h := foldl_eq rest byte.toNat
  simpa only [value, List.foldl_cons, Nat.zero_mul, Nat.zero_add] using h

theorem value_append (first second : Bytes) :
    value (first ++ second) = value first * 256 ^ second.length + value second := by
  have h := foldl_eq second (value first)
  simpa only [value, List.foldl_append] using h

theorem value_lt (bytes : Bytes) : value bytes < 256 ^ bytes.length := by
  induction bytes with
  | nil => simp [value]
  | cons byte rest ih =>
      have hbyte : byte.toNat + 1 ≤ 256 := byte.toNat_lt
      have hscaled := Nat.mul_le_mul_right (256 ^ rest.length) hbyte
      rw [value_cons, List.length_cons, pow_succ]
      rw [Nat.add_mul] at hscaled
      omega

@[simp] theorem value_zeros (count : Nat) : value (zeros count) = 0 := by
  induction count with
  | zero => rfl
  | succ count ih =>
      have hcons : zeros (count + 1) = 0 :: zeros count := List.replicate_succ
      rw [hcons, value_cons, ih]
      simp

-- Digits that do not fit in the width are dropped.
private theorem value_ofNatOnto (width n : Nat) (rest : Bytes) :
    value (ofNatOnto width n rest) = n % 256 ^ width * 256 ^ rest.length + value rest := by
  induction width generalizing n rest with
  | zero => simp [ofNatOnto, Nat.mod_one]
  | succ width ih =>
      have hdigit : (UInt8.ofNat n).toNat = n % 256 := by simp
      have hsplit : n % 256 ^ (width + 1) = n % 256 + 256 * (n / 256 % 256 ^ width) := by
        rw [pow_succ', Nat.mod_mul]
      rw [ofNatOnto, ih, value_cons, hdigit, List.length_cons, hsplit]
      ring

theorem value_ofNat (width n : Nat) : value (ofNat width n) = n % 256 ^ width := by
  rw [ofNat, value_ofNatOnto]
  simp [value_nil]

@[simp] theorem length_part (bytes : Bytes) (start length : Nat) :
    (bytes.part start length).length = min length (bytes.length - start) := by
  simp [part]

-- Writing the zeros of a window out multiplies by one power of 256 for each.
theorem value_window (bytes : Bytes) (start length : Nat) :
    (bytes.window start length).value = bytes.valueAt start length := by
  simp only [window, valueAt, value_append, value_zeros, length_zeros, Nat.add_zero,
    Nat.shiftLeft_eq, pow_mul]
  rfl

theorem valueAt_lt (bytes : Bytes) (start length : Nat) :
    bytes.valueAt start length < 256 ^ length := by
  have h := value_lt (bytes.window start length)
  rwa [value_window, length_window] at h

-- Before the end nothing is added.
theorem valueAt_of_le_length (bytes : Bytes) (start length : Nat)
    (h : start + length ≤ bytes.length) :
    bytes.valueAt start length = (bytes.part start length).value := by
  have hlength : (bytes.part start length).length = length := by
    rw [length_part]
    omega
  simp only [valueAt, hlength, Nat.sub_self, Nat.mul_zero, Nat.shiftLeft_zero]

-- Behind the end there are only zeros.
theorem valueAt_of_length_le (bytes : Bytes) (start length : Nat) (h : bytes.length ≤ start) :
    bytes.valueAt start length = 0 := by
  simp [valueAt, part, List.drop_of_length_le h, value_nil]

theorem part_drop (bytes : Bytes) (skipped start length : Nat) :
    part (bytes.drop skipped) start length = bytes.part (skipped + start) length := by
  simp [part, List.drop_drop]

theorem valueAt_drop (bytes : Bytes) (skipped start length : Nat) :
    valueAt (bytes.drop skipped) start length = bytes.valueAt (skipped + start) length := by
  simp only [valueAt, part_drop]

theorem window_drop (bytes : Bytes) (skipped start length : Nat) :
    window (bytes.drop skipped) start length = bytes.window (skipped + start) length := by
  simp only [window, part_drop]

theorem getElem_window (bytes : Bytes) (start length i : Nat)
    (hi : i < (bytes.window start length).length) :
    (bytes.window start length)[i] = bytes.getD (start + i) 0 := by
  have hlength : i < length := by simpa using hi
  simp only [window, zeros, List.getElem_append, length_part]
  split
  · rename_i hpresent
    have hin : start + i < bytes.length := by omega
    simp [part, List.getD_eq_getElem?_getD, hin]
  · rename_i habsent
    have hout : bytes.length ≤ start + i := by omega
    simp [List.getD_eq_getElem?_getD, hout]

-- Two windows side by side are one window.
theorem window_add (bytes : Bytes) (start first second : Nat) :
    bytes.window start (first + second) =
      bytes.window start first ++ bytes.window (start + first) second := by
  apply List.ext_getElem
  · simp
  · intro i hi hi'
    rw [List.getElem_append]
    split
    · rw [getElem_window, getElem_window]
    · rename_i hfirst
      simp only [length_window] at hfirst
      rw [getElem_window, getElem_window]
      congr 1
      simp only [length_window]
      omega

theorem take_window (bytes : Bytes) (start length count : Nat) (h : count ≤ length) :
    (bytes.window start length).take count = bytes.window start count := by
  obtain ⟨rest, rfl⟩ := Nat.exists_eq_add_of_le h
  rw [window_add, List.take_append_of_le_length (by simp), List.take_of_length_le (by simp)]

-- Zeros that are written out are not told from the endless ones.
theorem window_append_zeros (bytes : Bytes) (count start length : Nat) :
    window (bytes ++ zeros count) start length = bytes.window start length := by
  have hsame : ∀ i, (bytes ++ zeros count).getD i 0 = bytes.getD i 0 := by
    intro i
    by_cases hin : i < bytes.length
    · exact List.getD_append _ _ _ _ hin
    · have hout : bytes.length ≤ i := Nat.not_lt.mp hin
      rw [List.getD_append_right _ _ _ _ hout, List.getD_eq_default _ _ hout]
      simp [zeros, List.getD_eq_getElem?_getD]
  apply List.ext_getElem
  · simp
  · intro i hi hi'
    rw [getElem_window, getElem_window, hsame]

theorem valueAt_append_zeros (bytes : Bytes) (count start length : Nat) :
    valueAt (bytes ++ zeros count) start length = bytes.valueAt start length := by
  rw [← value_window, window_append_zeros, value_window]

-- The high digits of a long window are its first bytes.
theorem valueAt_add (bytes : Bytes) (start first second : Nat) :
    bytes.valueAt start (first + second) =
      bytes.valueAt start first * 256 ^ second + bytes.valueAt (start + first) second := by
  simp only [← value_window, window_add, value_append, length_window]

end NativeContracts.Bytes
