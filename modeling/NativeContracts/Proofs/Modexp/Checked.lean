import NativeContracts.Proofs.Checked
import NativeContracts.Proofs.Modexp.Charge

-- The price of a modular exponentiation with every step that a machine may refuse. The formulas
-- are evaluated on numbers of 256 binary digits, the lengths and the count are words.

namespace NativeContracts

namespace Modexp

open Machine (sizeWidth fit? add? mul? sub? word? fit?_of_lt add?_of_lt mul?_of_lt sub?_of_le)
open Saturating (limit)

-- A length that is no word is cut to the largest one. The exponent has no head where the length of
-- the base is no place, or one behind the data.
def Header.read? (input : Bytes) : Option Header := do
  let baseLength := (word? (← input.valueAt? 0 32)).getD Gas.most
  let exponentLength := (word? (← input.valueAt? 32 32)).getD Gas.most
  let modulusLength := (word? (← input.valueAt? 64 32)).getD Gas.most
  let data := (input.from? 96).getD []
  let head ← match fit? sizeWidth baseLength.toNat with
    | none => some 0
    | some start =>
      if start < (← fit? sizeWidth data.length) then
        data.valueAt? start (← fit? sizeWidth (min exponentLength.toNat 32))
      else
        some 0
  some ⟨baseLength, exponentLength, modulusLength, head⟩

def iterations? (exponentLength : UInt64) (head : Nat) : Option UInt64 := do
  let digits ← fit? 64 (bitLength head)
  let count ←
    if exponentLength ≤ 32 then
      if head = 0 then some 0 else some (UInt64.ofNat (← sub? digits 1))
    else do
      let later ← sub? exponentLength 32
      let leading ← sub? (max 1 digits) 1
      some (Saturating.add (Saturating.mul 8 later) (UInt64.ofNat leading))
  some (if count = 0 then 1 else count)

-- A piece of the earlier formula. The difference is taken before the square is added, so that the
-- square does not make up for anything.
def piece? (divisor factor offset length : Nat) : Option Nat := do
  let square ← mul? 256 length length
  let difference ← sub? (← mul? 256 factor length) offset
  add? 256 difference (square / divisor)

def complexity? (length : Nat) : Option Nat :=
  if length ≤ 64 then mul? 256 length length
  else if length ≤ 1024 then piece? 4 96 3072 length
  else piece? 16 480 199680 length

def wordComplexity? (length : Nat) : Option Nat := do
  let words := (← add? 256 length 7) / 8
  mul? 256 words words

namespace Pricing

def multiplication? : Pricing → Nat → Option Nat
  | eip198 => complexity?
  | eip2565 => wordComplexity?

def cost? (pricing : Pricing) (baseLength exponentLength modulusLength : UInt64) (head : Nat) :
    Option Gas := do
  let multiplication ← pricing.multiplication? (max baseLength.toNat modulusLength.toNat)
  let count ← iterations? exponentLength head
  let product ← mul? 256 multiplication count.toNat
  let price := Saturating.ofNat (product / pricing.divisor)
  match pricing with
  | eip198 => some price
  | eip2565 => some (if price < 200 then 200 else price)

def quote? (pricing : Pricing) (input : Bytes) : Option Gas := do
  let header ← Header.read? input
  pricing.cost? header.baseLength header.exponentLength header.modulusLength header.head

end Pricing

-- Every reading asks for at most 32 bytes, and every length is a place as it stands.
theorem Header.read?_of_lt {input : Bytes} (h : input.length < 2 ^ 64) :
    Header.read? input = some (Header.read input) := by
  have hdata : (input.drop 96).length < 2 ^ 64 := by
    rw [List.length_drop]
    exact (Nat.sub_le _ _).trans_lt h
  have hlength : ∀ start, input.valueAt? start 32 = some (input.valueAt start 32) :=
    fun start => Bytes.valueAt?_of_le h le_rfl
  have hhead : ∀ start size : Nat, Bytes.valueAt? (input.drop 96) start (min size 32) =
      some (Bytes.valueAt (input.drop 96) start (min size 32)) :=
    fun start size => Bytes.valueAt?_of_le hdata (Nat.min_le_right _ _)
  have hplace : ∀ word : UInt64, fit? sizeWidth word.toNat = some word.toNat :=
    fun word => fit?_of_lt word.toNat_lt
  have hsize : ∀ word : UInt64, fit? sizeWidth (min word.toNat 32) = some (min word.toNat 32) :=
    fun word => fit?_of_lt ((Nat.min_le_left _ _).trans_lt word.toNat_lt)
  have hend : fit? sizeWidth (input.drop 96).length = some (input.drop 96).length :=
    fit?_of_lt hdata
  simp only [Header.read?, Header.read, hlength, Machine.getD_word?, Bytes.getD_from?, hplace,
    hend, hsize, hhead, Option.bind_eq_bind, Option.bind_some]
  split <;> rfl

theorem bitLength_pos {n : Nat} (h : n ≠ 0) : 1 ≤ bitLength n := by
  simp only [bitLength, if_neg h]
  exact Nat.le_add_left _ _

theorem iterations?_of_lt (exponentLength : UInt64) {head : Nat} (h : head < 2 ^ 256) :
    iterations? exponentLength head = some (iterations exponentLength head) := by
  have hlength : bitLength head ≤ 256 := (bitLength_le_iff _ _).mpr h
  have hdigits : fit? 64 (bitLength head) = some (bitLength head) := fit?_of_lt (by omega)
  unfold iterations? iterations
  rw [hdigits]
  simp only [Option.bind_eq_bind, Option.bind_some]
  by_cases hshort : exponentLength ≤ 32
  · by_cases hzero : head = 0
    · subst hzero
      simp only [if_pos hshort]
      rfl
    · simp only [if_pos hshort, if_neg hzero, sub?_of_le (bitLength_pos hzero), Option.bind_some]
  · have hlong : 32 ≤ exponentLength := UInt64.le_of_lt (UInt64.not_le.mp hshort)
    simp only [if_neg hshort, sub?_of_le hlong, sub?_of_le (Nat.le_max_left 1 _), Option.bind_some]

theorem mul_lt_of_word {a b : Nat} (ha : a < 2 ^ 64) (hb : b < 2 ^ 64) : a * b < 2 ^ 128 :=
  (Nat.mul_lt_mul'' ha hb).trans_eq (by decide)

theorem mul?_of_word {a b : Nat} (ha : a < 2 ^ 64) (hb : b < 2 ^ 64) :
    mul? 256 a b = some (a * b) := by
  have hproduct := mul_lt_of_word ha hb
  exact mul?_of_lt (by omega)

theorem piece?_of_le {divisor factor offset length : Nat} (hlength : length < 2 ^ 64)
    (hfactor : factor < 2 ^ 64) (hoffset : offset ≤ factor * length) :
    piece? divisor factor offset length =
      some (length * length / divisor + factor * length - offset) := by
  have hsquare := mul_lt_of_word hlength hlength
  have hlinear := mul_lt_of_word hfactor hlength
  have hsum : factor * length - offset + length * length / divisor < 2 ^ 256 := by
    calc
      _ ≤ factor * length + length * length :=
        Nat.add_le_add (Nat.sub_le _ _) (Nat.div_le_self _ _)
      _ < 2 ^ 256 := by omega
  have hvalue : factor * length - offset + length * length / divisor =
      length * length / divisor + factor * length - offset := by
    rw [Nat.add_comm, Nat.add_sub_assoc hoffset]
  rw [piece?, mul?_of_word hlength hlength, mul?_of_word hfactor hlength]
  simp only [Option.bind_eq_bind, Option.bind_some, sub?_of_le hoffset, add?_of_lt hsum, hvalue]

-- The first difference is taken from a length of 65 on, and the second from 1025 on.
theorem complexity?_of_lt {length : Nat} (h : length < 2 ^ 64) :
    complexity? length = some (complexity length) := by
  unfold complexity? complexity
  split
  · exact mul?_of_word h h
  split
  · exact piece?_of_le h (by omega) (by omega)
  · exact piece?_of_le h (by omega) (by omega)

theorem wordComplexity?_of_lt {length : Nat} (h : length < 2 ^ 64) :
    wordComplexity? length = some (wordComplexity length) := by
  have hwords : (length + 7) / 8 < 2 ^ 64 := by omega
  have hsum : add? 256 length 7 = some (length + 7) := add?_of_lt (by omega)
  rw [wordComplexity?, hsum, Option.bind_eq_bind, Option.bind_some]
  exact mul?_of_word hwords hwords

namespace Pricing

variable (pricing : Pricing)

theorem multiplication?_of_lt {length : Nat} (h : length < 2 ^ 64) :
    pricing.multiplication? length = some (pricing.multiplication length) := by
  cases pricing with
  | eip198 => exact complexity?_of_lt h
  | eip2565 => exact wordComplexity?_of_lt h

-- The largest multiplication, as often as it can be counted.
theorem multiplication_mul_lt {length : Nat} (h : length < 2 ^ 64) (count : UInt64) :
    pricing.multiplication length * count.toNat < 2 ^ 256 := by
  have hcount : count.toNat ≤ limit := Nat.le_of_lt_succ count.toNat_lt
  calc
    _ ≤ pricing.multiplication limit * limit :=
      Nat.mul_le_mul (pricing.multiplication_mono (Nat.le_of_lt_succ h)) hcount
    _ < 2 ^ 256 := by cases pricing <;> decide

theorem cost?_of_lt (baseLength exponentLength modulusLength : UInt64) {head : Nat}
    (h : head < 2 ^ 256) :
    pricing.cost? baseLength exponentLength modulusLength head =
      some (pricing.cost baseLength exponentLength modulusLength head) := by
  have hlongest : max baseLength.toNat modulusLength.toNat < 2 ^ 64 :=
    max_lt baseLength.toNat_lt modulusLength.toNat_lt
  have hproduct := pricing.multiplication_mul_lt hlongest (iterations exponentLength head)
  rw [cost?, pricing.multiplication?_of_lt hlongest, iterations?_of_lt exponentLength h]
  simp only [Option.bind_eq_bind, Option.bind_some, mul?_of_lt hproduct]
  cases pricing <;> rfl

theorem quote?_of_lt {input : Bytes} (h : input.length < 2 ^ 64) :
    pricing.quote? input = some (pricing.quote input) := by
  have hhead : (Header.read input).head < 2 ^ 256 := by
    rw [Header.read_head input (.inr (Nat.le_of_lt_succ h))]
    exact exponentLead_lt input
  rw [quote?, Header.read?_of_lt h, Option.bind_eq_bind, Option.bind_some]
  exact pricing.cost?_of_lt _ _ _ hhead

end Pricing

end Modexp

-- No step of a price is refused, whatever lengths an input declares and wherever it ends. A reading
-- fails for its size alone, so that a place may be as large as there are places; each later step
-- goes through for every word, up to the largest lengths together with the largest count.
theorem pricing_steps_never_refused :
    (∀ input : Bytes, input.length < 2 ^ 63 →
      (∀ pricing : Modexp.Pricing, pricing.quote? input = some (pricing.quote input)) ∧
        Price.compression? input = some (Price.compression input) ∧
        Modexp.Header.read? input = some (Modexp.Header.read input) ∧
        ∀ start size : ℕ, (input.valueAt? start size = none ↔ 32 < size) ∧
          (size ≤ 32 → input.valueAt? start size = some (input.valueAt start size))) ∧
      (∀ (exponentLength : UInt64) (head : ℕ), head < 2 ^ 256 →
        Modexp.iterations? exponentLength head = some (Modexp.iterations exponentLength head)) ∧
      ∀ (pricing : Modexp.Pricing) (length count : UInt64),
        pricing.multiplication? length.toNat = some (pricing.multiplication length.toNat) ∧
          pricing.multiplication length.toNat * count.toNat < 2 ^ 256 := by
  refine ⟨fun input h => ?_, fun exponentLength head => Modexp.iterations?_of_lt exponentLength,
    fun pricing length count => ⟨pricing.multiplication?_of_lt length.toNat_lt,
      pricing.multiplication_mul_lt length.toNat_lt count⟩⟩
  have hfits : input.length < 2 ^ 64 := by omega
  exact ⟨fun pricing => pricing.quote?_of_lt hfits, Price.compression?_of_lt hfits,
    Modexp.Header.read?_of_lt hfits,
    fun start size => ⟨Bytes.valueAt?_eq_none_iff hfits, Bytes.valueAt?_of_le hfits⟩⟩

-- All three lengths are far too large, and 32 bytes are read from a place to which no 32 can be
-- added. The other input ends behind the first of 40 bytes of its exponent. The last parts take the
-- largest word as the length of an exponent, and as that of a modulus.
theorem largest_lengths_priced :
    let length := Bytes.ofNat 32 (2 ^ 256 - 1)
    let largest := length ++ length ++ length ++ [1]
    let cut := Bytes.ofNat 32 0 ++ Bytes.ofNat 32 40 ++ Bytes.ofNat 32 64 ++ [5]
    (∀ pricing : Modexp.Pricing, pricing.quote? largest = some Gas.most) ∧
      Bytes.valueAt? largest (2 ^ 64 - 1) 32 = some 0 ∧
      Bytes.valueAt? largest 0 33 = none ∧
      Modexp.Pricing.eip2565.quote? cut = some 6698 ∧
      Modexp.iterations? Gas.most (2 ^ 256 - 1) = some Gas.most ∧
      Modexp.Pricing.eip2565.multiplication? (2 ^ 64 - 1) = some (2 ^ 122) := by
  intro length largest cut
  obtain ⟨hinput, hiterations, hword⟩ := pricing_steps_never_refused
  obtain ⟨hquote, -, -, hread⟩ := hinput largest (by decide)
  obtain ⟨hquote', -⟩ := hinput cut (by decide)
  have hlargest : ∀ pricing : Modexp.Pricing, pricing.quote largest = Gas.most := by
    intro pricing
    cases pricing <;> decide +kernel
  have hcut : Modexp.Pricing.eip2565.quote cut = 6698 := by decide +kernel
  have hbehind : largest.valueAt (2 ^ 64 - 1) 32 = 0 :=
    Bytes.valueAt_of_length_le _ _ _ (by decide)
  have hcount : Modexp.iterations Gas.most (2 ^ 256 - 1) = Gas.most := by decide +kernel
  have hwords : Modexp.Pricing.eip2565.multiplication (2 ^ 64 - 1) = 2 ^ 122 := by decide
  refine ⟨fun pricing => ?_, ?_, (hread 0 33).1.mpr (by decide), ?_, ?_, ?_⟩
  · rw [hquote, hlargest]
  · rw [(hread _ 32).2 le_rfl, hbehind]
  · rw [hquote', hcut]
  · rw [hiterations _ _ (by decide), hcount]
  · rw [← hwords]
    exact (hword .eip2565 Gas.most 0).1

end NativeContracts
