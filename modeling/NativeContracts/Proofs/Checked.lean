import NativeContracts.Price
import NativeContracts.Proofs.Bytes

-- Steps that a machine may refuse: a number that is too large for its width, a difference below
-- zero, a stretch of bytes that reaches past their end. What comes after a refused step has no
-- result either.

namespace NativeContracts

namespace Machine

variable {α : Type} {width n m : Nat}

-- The width of a place in a byte string, and of the length of one.
def sizeWidth : Nat := 64

def fit? (width n : Nat) : Option Nat := if n < 2 ^ width then some n else none

def add? (width a b : Nat) : Option Nat := fit? width (a + b)

def mul? (width a b : Nat) : Option Nat := fit? width (a * b)

def sub? [LE α] [DecidableLE α] [Sub α] (a b : α) : Option α :=
  if b ≤ a then some (a - b) else none

def word? (n : Nat) : Option UInt64 := (fit? 64 n).map UInt64.ofNat

theorem fit?_of_lt (h : n < 2 ^ width) : fit? width n = some n := if_pos h

theorem add?_of_lt (h : n + m < 2 ^ width) : add? width n m = some (n + m) := fit?_of_lt h

theorem mul?_of_lt (h : n * m < 2 ^ width) : mul? width n m = some (n * m) := fit?_of_lt h

theorem sub?_of_le [LE α] [DecidableLE α] [Sub α] {a b : α} (h : b ≤ a) :
    sub? a b = some (a - b) := if_pos h

-- A number is cut where the word for it is refused.
theorem getD_word? (n : Nat) : (word? n).getD Gas.most = Saturating.ofNat n := by
  apply UInt64.toNat_inj.mp
  rw [Saturating.toNat_ofNat]
  unfold word? fit?
  split
  · rename_i hfits
    rw [Option.map_some, Option.getD_some, UInt64.toNat_ofNat']
    simp only [Saturating.limit]
    omega
  · rename_i hrefused
    rw [Option.map_none, Option.getD_none, Gas.most, Saturating.toNat_ofNat]
    simp only [Saturating.limit]
    omega

end Machine

namespace Bytes

open Machine (sizeWidth fit? fit?_of_lt)

def from? (bytes : Bytes) (start : Nat) : Option Bytes :=
  if start ≤ bytes.length then some (bytes.drop start) else none

def first? (bytes : Bytes) (count : Nat) : Option Bytes :=
  if count ≤ bytes.length then some (bytes.take count) else none

-- What is copied has to be as long as what it is copied over.
def overwrite? (buffer source : Bytes) (count : Nat) : Option Bytes := do
  let target ← buffer.first? count
  let copied ← source.first? count
  if target.length = copied.length then some (copied ++ buffer.drop count) else none

-- A buffer of zeros, and over the first of them the bytes that stand there. The place may lie
-- anywhere, also behind the end: nothing is ever added to it.
def buffered? (bytes : Bytes) (start size : Nat) : Option Bytes :=
  match bytes.from? start with
  | none => some (zeros 32)
  | some available => do
    let count := min (← fit? sizeWidth available.length) size
    (zeros 32).overwrite? available count

def valueAt? (bytes : Bytes) (start size : Nat) : Option Nat := do
  let digits ← (← bytes.buffered? start size).first? size
  fit? 256 digits.value

variable {bytes buffer source result : Bytes} {start size count : Nat}

theorem from?_of_le (h : start ≤ bytes.length) : bytes.from? start = some (bytes.drop start) :=
  if_pos h

theorem from?_of_lt (h : bytes.length < start) : bytes.from? start = none :=
  if_neg (Nat.not_le.mpr h)

theorem getD_from? (bytes : Bytes) (start : Nat) :
    (bytes.from? start).getD [] = bytes.drop start := by
  rcases Nat.lt_or_ge bytes.length start with hbehind | hstart
  · rw [from?_of_lt hbehind, List.drop_of_length_le hbehind.le, Option.getD_none]
  · rw [from?_of_le hstart, Option.getD_some]

theorem first?_eq_some_iff :
    bytes.first? count = some result ↔ count ≤ bytes.length ∧ bytes.take count = result := by
  simp [first?]

-- The two stretches have one length as soon as both are there.
theorem overwrite?_eq_some_iff :
    buffer.overwrite? source count = some result ↔
      count ≤ buffer.length ∧ count ≤ source.length ∧
        source.take count ++ buffer.drop count = result := by
  simp only [overwrite?, Option.bind_eq_bind, Option.bind_eq_some_iff, first?_eq_some_iff]
  constructor
  · rintro ⟨_, ⟨hbuffer, rfl⟩, _, ⟨hsource, rfl⟩, hresult⟩
    simp only [Option.ite_none_right_eq_some, Option.some_inj] at hresult
    exact ⟨hbuffer, hsource, hresult.2⟩
  · rintro ⟨hbuffer, hsource, rfl⟩
    refine ⟨_, ⟨hbuffer, rfl⟩, _, ⟨hsource, rfl⟩, if_pos ?_⟩
    rw [List.length_take_of_le hbuffer, List.length_take_of_le hsource]

theorem part_eq_take_min (bytes : Bytes) (start size : Nat) :
    bytes.part start size = (bytes.drop start).take (min (bytes.drop start).length size) :=
  List.take_eq_take_iff.mpr (by omega)

theorem part_of_length_le (h : bytes.length ≤ start) : bytes.part start size = [] := by
  rw [part, List.drop_of_length_le h, List.take_nil]

-- Only what is there is copied, so that a size above 32 may fit in the buffer all the same.
theorem buffered?_eq_some_iff (h : bytes.length < 2 ^ 64) :
    bytes.buffered? start size = some result ↔
      min (bytes.length - start) size ≤ 32 ∧
        bytes.part start size ++ zeros (32 - (bytes.part start size).length) = result := by
  rcases Nat.lt_or_ge bytes.length start with hbehind | hstart
  · have hnone : bytes.length - start = 0 := Nat.sub_eq_zero_of_le hbehind.le
    rw [buffered?, from?_of_lt hbehind, part_of_length_le hbehind.le, hnone]
    simp
  · have hfits : (bytes.drop start).length < 2 ^ sizeWidth := by
      rw [List.length_drop]
      exact (Nat.sub_le _ _).trans_lt h
    have hcount : (bytes.part start size).length = min (bytes.drop start).length size := by
      rw [length_part, List.length_drop, Nat.min_comm]
    have hrest : (zeros 32).drop (min (bytes.drop start).length size) =
        zeros (32 - min (bytes.drop start).length size) :=
      List.drop_replicate
    rw [buffered?, from?_of_le hstart, hcount, part_eq_take_min, ← List.length_drop, ← hrest]
    simp only [Option.bind_eq_bind, fit?_of_lt hfits, Option.bind_some, overwrite?_eq_some_iff,
      length_zeros, Nat.min_le_left, true_and]

-- What the buffer holds is the window, and zeros up to its end.
theorem part_append_zeros (bytes : Bytes) (start : Nat) (h : size ≤ 32) :
    bytes.part start size ++ zeros (32 - (bytes.part start size).length) =
      bytes.window start size ++ zeros (32 - size) := by
  have hpart := length_part_le bytes start size
  have hzeros : 32 - (bytes.part start size).length =
      size - (bytes.part start size).length + (32 - size) := by
    omega
  rw [hzeros, window, List.append_assoc, zeros, zeros, zeros, List.replicate_append_replicate]

theorem valueAt?_of_le (h : bytes.length < 2 ^ 64) (hsize : size ≤ 32) :
    bytes.valueAt? start size = some (bytes.valueAt start size) := by
  have hbuffer : bytes.buffered? start size =
      some (bytes.window start size ++ zeros (32 - size)) :=
    (buffered?_eq_some_iff h).mpr
      ⟨(Nat.min_le_right _ _).trans hsize, part_append_zeros bytes start hsize⟩
  have hdigits : first? (bytes.window start size ++ zeros (32 - size)) size =
      some (bytes.window start size) :=
    first?_eq_some_iff.mpr ⟨by simp, List.take_left' (length_window _ _ _)⟩
  have hvalue : bytes.valueAt start size < 2 ^ 256 := by
    have hpower : 256 ^ size ≤ 256 ^ 32 := Nat.pow_le_pow_right (by decide) hsize
    exact (valueAt_lt bytes start size).trans_le (hpower.trans (by decide))
  simp only [valueAt?, hbuffer, hdigits, value_window, Option.bind_eq_bind, Option.bind_some]
  exact fit?_of_lt hvalue

-- The size alone decides: neither the place nor the end of the bytes makes a reading fail.
theorem valueAt?_eq_none_iff (h : bytes.length < 2 ^ 64) :
    bytes.valueAt? start size = none ↔ 32 < size := by
  constructor
  · intro hnone
    by_contra hsize
    rw [valueAt?_of_le h (Nat.not_lt.mp hsize)] at hnone
    cases hnone
  · intro hsize
    rw [Option.eq_none_iff_forall_ne_some]
    intro value hvalue
    simp only [valueAt?, Option.bind_eq_bind, Option.bind_eq_some_iff, first?_eq_some_iff,
      buffered?_eq_some_iff h] at hvalue
    obtain ⟨_, ⟨hcount, rfl⟩, _, ⟨hread, -⟩, -⟩ := hvalue
    simp only [List.length_append, length_part, length_zeros] at hread
    omega

end Bytes

namespace Price

open Machine (sizeWidth fit? fit?_of_lt)

-- The four bytes of the rounds are looked up one by one.
def compression? (input : Bytes) : Option Gas := do
  if (← fit? sizeWidth input.length) = compressionLength then
    let rounds ← fit? 32 (Bytes.value [← input[0]?, ← input[1]?, ← input[2]?, ← input[3]?])
    some (Saturating.mul (UInt64.ofNat rounds) perRound)
  else
    some 0

theorem compression?_of_lt {input : Bytes} (h : input.length < 2 ^ 64) :
    compression? input = some (compression input) := by
  have hfits : input.length < 2 ^ sizeWidth := h
  rw [compression?, fit?_of_lt hfits, compression]
  simp only [Option.bind_eq_bind, Option.bind_some]
  split
  · rename_i hlength
    have hfour : 4 ≤ input.length := by
      rw [hlength]
      decide
    match input, hfour with
    | first :: second :: third :: fourth :: rest, _ =>
        have hrounds : Bytes.value [first, second, third, fourth] < 2 ^ 32 :=
          (Bytes.value_lt _).trans_eq (by decide : 256 ^ 4 = 2 ^ 32)
        have hvalue : Bytes.valueAt (first :: second :: third :: fourth :: rest) 0 4 =
            Bytes.value [first, second, third, fourth] :=
          Bytes.valueAt_of_le_length _ 0 4 (by simp)
        simp [fit?_of_lt hrounds, hvalue]
  · rfl

end Price

end NativeContracts
