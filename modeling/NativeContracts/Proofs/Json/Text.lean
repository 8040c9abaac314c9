import NativeContracts.Json.Text
import NativeContracts.Proofs.Json.Grammar
import Mathlib.Tactic.IntervalCases
import Mathlib.Tactic.Ring

namespace NativeContracts.Json

section Blanks

theorem isBlank_iff (c : Char) : isBlank c = true ↔ c ∈ [' ', '\t', '\n', '\r'] := by
  simp only [isBlank, Bool.or_eq_true, decide_eq_true_eq, List.mem_cons, List.not_mem_nil,
    or_false]
  tauto

theorem Blanks.nil : Blanks [] := by simp [Blanks]

theorem skipBlanks_of_blanks {blanks : List Char} (h : Blanks blanks) (rest : List Char) :
    skipBlanks (blanks ++ rest) = skipBlanks rest := by
  induction blanks with
  | nil => rfl
  | cons c blanks ih =>
      have hc : isBlank c = true := (isBlank_iff c).mpr (h c List.mem_cons_self)
      have hrest : Blanks blanks := fun d hd => h d (.tail _ hd)
      simpa [skipBlanks, hc] using ih hrest

theorem skipBlanks_cons {c : Char} (h : isBlank c = false) (rest : List Char) :
    skipBlanks (c :: rest) = c :: rest := by
  simp [skipBlanks, h]

theorem skipBlanks_append_cons {blanks : List Char} {c : Char} (hblanks : Blanks blanks)
    (hc : isBlank c = false) (rest : List Char) :
    skipBlanks (blanks ++ c :: rest) = c :: rest := by
  rw [skipBlanks_of_blanks hblanks, skipBlanks_cons hc]

theorem exists_blanks (text : List Char) :
    ∃ blanks, Blanks blanks ∧ text = blanks ++ skipBlanks text := by
  refine ⟨text.takeWhile isBlank, fun c hc => ?_, List.takeWhile_append_dropWhile.symm⟩
  exact (isBlank_iff c).mp (List.all_eq_true.mp List.all_takeWhile c hc)

theorem skipBlanks_skipBlanks (text : List Char) :
    skipBlanks (skipBlanks text) = skipBlanks text := by
  obtain ⟨blanks, hblanks, htext⟩ := exists_blanks text
  conv_rhs => rw [htext, skipBlanks_of_blanks hblanks]

theorem skipBlanks_eq_nil_iff (text : List Char) : skipBlanks text = [] ↔ Blanks text := by
  constructor
  · intro h
    obtain ⟨blanks, hblanks, htext⟩ := exists_blanks text
    rwa [htext, h, List.append_nil]
  · intro h
    have hskip := skipBlanks_of_blanks h []
    rwa [List.append_nil] at hskip

end Blanks

theorem afterWord?_eq_some_iff (word text rest : List Char) :
    afterWord? word text = some rest ↔ text = word ++ rest := by
  induction word generalizing text with
  | nil => simp [afterWord?]
  | cons w word ih =>
      cases text with
      | nil => simp [afterWord?]
      | cons c text =>
          simp only [afterWord?, List.cons_append, List.cons.injEq]
          split
          · rename_i heq
            rw [ih]
            simp [heq]
          · rename_i hne
            simp [Ne.symm hne]

section Escapes

theorem shortEscape?_eq_some_iff (letter c : Char) :
    shortEscape? letter = some c ↔ (letter, c) ∈ escapes := by
  unfold shortEscape?
  split <;> simp_all [escapes, eq_comm]

-- The three runs of digits in the order of the characters.
private theorem hexDigit_of_toNat {n : Nat} {c : Char}
    (h : c.toNat = n + 48 ∧ n < 10 ∨ c.toNat = n + 87 ∧ 10 ≤ n ∧ n < 16 ∨
      c.toNat = n + 55 ∧ 10 ≤ n ∧ n < 16) : HexDigit n c := by
  have hc : c = Char.ofNat c.toNat := (Char.ofNat_toNat c).symm
  rcases h with ⟨htoNat, hn⟩ | ⟨htoNat, hn, hn'⟩ | ⟨htoNat, hn, hn'⟩ <;>
  · rw [htoNat] at hc
    subst hc
    refine ⟨by omega, ?_⟩
    interval_cases n <;> decide

theorem hexValue?_eq_some_iff (c : Char) (n : Nat) : hexValue? c = some n ↔ HexDigit n c := by
  constructor
  · intro h
    have hle : ∀ a b : Char, a ≤ b ↔ a.toNat ≤ b.toNat := fun _ _ => Iff.rfl
    simp only [hexValue?, hle, Char.reduceToNat] at h
    apply hexDigit_of_toNat
    split at h
    · cases h
      omega
    split at h
    · cases h
      omega
    split at h
    · cases h
      omega
    · cases h
  · rintro ⟨hn, rfl | rfl⟩
    · interval_cases n <;> rfl
    · interval_cases n <;> rfl

theorem unit?_eq_some_iff (a b c d : Char) (n : Nat) :
    unit? a b c d = some n ↔ HexUnit [a, b, c, d] n := by
  simp only [unit?, Option.bind_eq_bind, Option.bind_eq_some_iff, Option.pure_def,
    Option.some.injEq, hexValue?_eq_some_iff]
  constructor
  · rintro ⟨w, hw, x, hx, y, hy, z, hz, rfl⟩
    have hvalue : w * 16 ^ 3 + x * 16 ^ 2 + y * 16 + z = ((w * 16 + x) * 16 + y) * 16 + z := by
      ring
    exact hvalue ▸ .mk hw hx hy hz
  · intro h
    cases h with
    | mk hw hx hy hz => exact ⟨_, hw, _, hx, _, hy, _, hz, by ring⟩

theorem HexUnit.exists_chars {digits : List Char} {n : Nat} (h : HexUnit digits n) :
    ∃ a b c d, digits = [a, b, c, d] ∧ unit? a b c d = some n := by
  cases h with
  | mk ha hb hc hd =>
      exact ⟨_, _, _, _, rfl, (unit?_eq_some_iff _ _ _ _ _).mpr (.mk ha hb hc hd)⟩

end Escapes

section Strings

theorem Plain.not_lt {c : Char} (h : Plain c) : ¬ c < ' ' := Char.not_lt.mpr h.1

theorem letter_ne_u {letter c : Char} (h : (letter, c) ∈ escapes) : letter ≠ 'u' := by
  rintro rfl
  simp [escapes] at h

theorem skipString_cons {c : Char} (h : Plain c) (rest : List Char) :
    skipString (c :: rest) = skipString rest := by
  simp [skipString, h.2.1, h.2.2, h.not_lt]

theorem skipString_escape {letter c : Char} (h : (letter, c) ∈ escapes) (rest : List Char) :
    skipString ('\\' :: letter :: rest) = skipString rest := by
  have hshort := (shortEscape?_eq_some_iff letter c).mpr h
  simp [skipString, letter_ne_u h, hshort]

theorem skipString_unit {digits : List Char} {n : Nat} (h : HexUnit digits n)
    (rest : List Char) : skipString ('\\' :: 'u' :: digits ++ rest) = skipString rest := by
  obtain ⟨a, b, c, d, rfl, hunit⟩ := h.exists_chars
  simp [skipString, hunit]

-- A backslash at the end of a text is no character, but it leaves nothing for the quote either.
private theorem plain_of_ne {c : Char} {rest : List Char} (hquote : c ≠ '"')
    (hslash : ∀ d rest', c = '\\' → rest = d :: rest' → False) (hlt : ¬ c < ' ')
    (hrest : rest ≠ []) : Plain c := by
  refine ⟨Char.not_lt.mp hlt, hquote, fun hc => ?_⟩
  obtain ⟨d, rest', rfl⟩ := List.exists_cons_of_ne_nil hrest
  exact hslash d rest' hc rfl

-- A string is passed over by its form, up to the first quote that no backslash precedes.
theorem skipString_eq_some_iff (text rest : List Char) :
    skipString text = some rest ↔ ∃ body, Body body ∧ text = body ++ '"' :: rest := by
  constructor
  · intro h
    fun_induction skipString text with
    | case1 => cases h
    | case2 tail =>
        cases h
        exact ⟨[], .nil, rfl⟩
    | case3 a b c d tail hunit ih =>
        obtain ⟨n, hn⟩ := Option.isSome_iff_exists.mp hunit
        obtain ⟨body, hbody, rfl⟩ := ih h
        exact ⟨_, .unit ((unit?_eq_some_iff a b c d n).mp hn) hbody, rfl⟩
    | case4 => cases h
    | case5 letter tail _ hshort ih =>
        obtain ⟨c, hc⟩ := Option.isSome_iff_exists.mp hshort
        obtain ⟨body, hbody, rfl⟩ := ih h
        exact ⟨_, .escape ((shortEscape?_eq_some_iff letter c).mp hc) hbody, rfl⟩
    | case6 => cases h
    | case7 => cases h
    | case8 c tail hquote _ hslash hlt ih =>
        obtain ⟨body, hbody, rfl⟩ := ih h
        exact ⟨_, .plain (plain_of_ne hquote hslash hlt (by simp)) hbody, rfl⟩
  · rintro ⟨body, hbody, rfl⟩
    induction hbody with
    | nil => simp [skipString]
    | plain hc _ ih => rw [List.cons_append, skipString_cons hc, ih]
    | escape hletter _ ih =>
        rw [List.cons_append, List.cons_append, skipString_escape hletter, ih]
    | unit hdigits _ ih => rw [List.append_assoc, skipString_unit hdigits, ih]

theorem readString_cons {c : Char} (h : Plain c) (rest : List Char) :
    readString (c :: rest) = (readString rest).map fun (chars, rest) => (c :: chars, rest) := by
  simp [readString, h.2.1, h.2.2, h.not_lt]

theorem readString_escape {letter c : Char} (h : (letter, c) ∈ escapes) (rest : List Char) :
    readString ('\\' :: letter :: rest) =
      (readString rest).map fun (chars, rest) => (c :: chars, rest) := by
  have hshort := (shortEscape?_eq_some_iff letter c).mpr h
  simp [readString, letter_ne_u h, hshort]

theorem HexUnit.lt {digits : List Char} {n : Nat} (h : HexUnit digits n) : n < 2 ^ 16 := by
  cases h with
  | mk ha hb hc hd =>
      have ha := ha.1
      have hb := hb.1
      have hc := hc.1
      have hd := hd.1
      omega

-- The number of a character is no half of a pair, and every other number is that of a character.
theorem not_half_toNat (c : Char) : isTrailing c.toNat = false ∧ isLeading c.toNat = false := by
  have hvalid : c.toNat < 0xd800 ∨ 0xdfff < c.toNat ∧ c.toNat < 0x110000 := c.valid
  simp only [isTrailing, isLeading, Bool.and_eq_false_iff, decide_eq_false_iff_not]
  omega

theorem toNat_ofNat_of_valid {n : Nat} (h : n < 0xd800 ∨ 0xdfff < n ∧ n < 0x110000) :
    (Char.ofNat n).toNat = n := by
  rw [Char.ofNat, dif_pos h]
  rfl

theorem isLeading_iff (n : Nat) :
    isLeading n = true ↔ ∃ high, n = 0xd800 + high ∧ high < 2 ^ 10 := by
  simp only [isLeading, Bool.and_eq_true, decide_eq_true_eq]
  constructor
  · intro h
    exact ⟨n - 0xd800, by omega, by omega⟩
  · rintro ⟨high, rfl, hhigh⟩
    omega

theorem isTrailing_iff (n : Nat) :
    isTrailing n = true ↔ ∃ low, n = 0xdc00 + low ∧ low < 2 ^ 10 := by
  simp only [isTrailing, Bool.and_eq_true, decide_eq_true_eq]
  constructor
  · intro h
    exact ⟨n - 0xdc00, by omega, by omega⟩
  · rintro ⟨low, rfl, hlow⟩
    omega

theorem toNat_joined {high low : Nat} (hhigh : high < 2 ^ 10) (hlow : low < 2 ^ 10) :
    (joined (0xd800 + high) (0xdc00 + low)).toNat = 0x10000 + high * 2 ^ 10 + low := by
  rw [joined, Nat.add_sub_cancel_left, Nat.add_sub_cancel_left]
  exact toNat_ofNat_of_valid (by omega)

theorem readString_unit {digits : List Char} {c : Char} (h : HexUnit digits c.toNat)
    (rest : List Char) : readString ('\\' :: 'u' :: digits ++ rest) =
      (readString rest).map fun (chars, rest) => (c :: chars, rest) := by
  obtain ⟨a, b, c', d, rfl, hunit⟩ := h.exists_chars
  simp [readString, hunit, not_half_toNat]

theorem readString_pair {digits digits' : List Char} {c : Char} {high low : Nat}
    (hhigh : high < 2 ^ 10) (hlow : low < 2 ^ 10) (hdigits : HexUnit digits (0xd800 + high))
    (hdigits' : HexUnit digits' (0xdc00 + low)) (hc : c.toNat = 0x10000 + high * 2 ^ 10 + low)
    (rest : List Char) :
    readString ('\\' :: 'u' :: digits ++ '\\' :: 'u' :: digits' ++ rest) =
      (readString rest).map fun (chars, rest) => (c :: chars, rest) := by
  obtain ⟨a, b, c', d, rfl, hunit⟩ := hdigits.exists_chars
  obtain ⟨e, f, g, h, rfl, hunit'⟩ := hdigits'.exists_chars
  have hleading : isLeading (0xd800 + high) = true := (isLeading_iff _).mpr ⟨high, rfl, hhigh⟩
  have hfirst : isTrailing (0xd800 + high) = false := by
    simp only [isTrailing, Bool.and_eq_false_iff, decide_eq_false_iff_not]
    omega
  have htrailing : isTrailing (0xdc00 + low) = true := (isTrailing_iff _).mpr ⟨low, rfl, hlow⟩
  have hjoined : joined (0xd800 + high) (0xdc00 + low) = c :=
    Char.toNat_inj.mp ((toNat_joined hhigh hlow).trans hc.symm)
  simp [readString, hunit, hunit', hleading, hfirst, htrailing, hjoined]

theorem toNat_ofNat_of_whole {unit : Nat} (hlt : unit < 2 ^ 16)
    (htrailing : ¬ isTrailing unit = true) (hleading : ¬ isLeading unit = true) :
    (Char.ofNat unit).toNat = unit := by
  simp only [isTrailing, isLeading, Bool.and_eq_true, decide_eq_true_eq] at htrailing hleading
  exact toNat_ofNat_of_valid (by omega)

-- What is behind the first character, if what is read from there is right.
private theorem exists_body {c : Char} {tail chars rest : List Char}
    (h : (readString tail).map (fun (chars, rest) => (c :: chars, rest)) = some (chars, rest))
    (ih : ∀ chars, readString tail = some (chars, rest) →
      ∃ body, Spells body chars ∧ tail = body ++ '"' :: rest) :
    ∃ body later, Spells body later ∧ chars = c :: later ∧ tail = body ++ '"' :: rest := by
  simp only [Option.map_eq_some_iff, Prod.mk.injEq, Prod.exists] at h
  obtain ⟨later, _, hread, rfl, rfl⟩ := h
  obtain ⟨body, hbody, htail⟩ := ih later hread
  exact ⟨body, later, hbody, rfl, htail⟩

-- A string is read to the same quote, and then only if its units make characters.
theorem readString_sound {text chars rest : List Char}
    (h : readString text = some (chars, rest)) :
    ∃ body, Spells body chars ∧ text = body ++ '"' :: rest := by
  fun_induction readString text generalizing chars with
  | case1 => cases h
  | case2 tail =>
      cases h
      exact ⟨[], .nil, rfl⟩
  | case3 => cases h
  | case4 => cases h
  | case5 => cases h
  | case6 a b c d high hunit _ hleading e f g h' tail low hunit' htrailing ih =>
      obtain ⟨body, later, hbody, rfl, rfl⟩ := exists_body h @ih
      obtain ⟨high, rfl, hhigh⟩ := (isLeading_iff _).mp hleading
      obtain ⟨low, rfl, hlow⟩ := (isTrailing_iff _).mp htrailing
      exact ⟨_, .pair hhigh hlow ((unit?_eq_some_iff a b c d _).mp hunit)
        ((unit?_eq_some_iff e f g h' _).mp hunit') (toNat_joined hhigh hlow) hbody, rfl⟩
  | case7 => cases h
  | case8 => cases h
  | case9 a b c d tail unit hunit htrailing hleading ih =>
      obtain ⟨body, later, hbody, rfl, rfl⟩ := exists_body h @ih
      have hdigits := (unit?_eq_some_iff a b c d unit).mp hunit
      have hwhole := toNat_ofNat_of_whole hdigits.lt htrailing hleading
      exact ⟨_, .unit (hwhole.symm ▸ hdigits) hbody, rfl⟩
  | case10 => cases h
  | case11 letter tail _ c hc ih =>
      obtain ⟨body, later, hbody, rfl, rfl⟩ := exists_body h @ih
      exact ⟨_, .escape ((shortEscape?_eq_some_iff letter c).mp hc) hbody, rfl⟩
  | case12 => cases h
  | case13 c tail hquote _ hslash hlt ih =>
      obtain ⟨body, later, hbody, rfl, rfl⟩ := exists_body h @ih
      exact ⟨_, .plain (plain_of_ne hquote hslash hlt (by simp)) hbody, rfl⟩

theorem readString_complete {body chars : List Char} (h : Spells body chars) (rest : List Char) :
    readString (body ++ '"' :: rest) = some (chars, rest) := by
  induction h with
  | nil => simp [readString]
  | plain hc _ ih =>
      rw [List.cons_append, readString_cons hc, ih]
      rfl
  | escape hletter _ ih =>
      rw [List.cons_append, List.cons_append, readString_escape hletter, ih]
      rfl
  | unit hdigits _ ih =>
      rw [List.append_assoc, readString_unit hdigits, ih]
      rfl
  | pair hhigh hlow hdigits hdigits' hc _ ih =>
      rw [List.append_assoc, readString_pair hhigh hlow hdigits hdigits' hc, ih]
      rfl

-- A body stands for one text at most, and for one only if its form is right.
theorem Spells.unique {body chars chars' : List Char} (h : Spells body chars)
    (h' : Spells body chars') : chars = chars' := by
  have hread := readString_complete h' []
  rw [readString_complete h []] at hread
  cases hread
  rfl

theorem Spells.body {body chars : List Char} (h : Spells body chars) : Body body := by
  induction h with
  | nil => exact .nil
  | plain hc _ ih => exact .plain hc ih
  | escape hletter _ ih => exact .escape hletter ih
  | unit hdigits _ ih => exact .unit hdigits ih
  | pair _ _ hdigits hdigits' _ _ ih =>
      rw [List.append_assoc]
      exact .unit hdigits (.unit hdigits' ih)

end Strings

end NativeContracts.Json
