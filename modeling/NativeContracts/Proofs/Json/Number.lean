import NativeContracts.Proofs.Json.Text

namespace NativeContracts.Json

theorem isDigit_eq (c : Char) : isDigit c = c.isDigit := by
  rw [Bool.eq_iff_iff]
  simp only [isDigit, Char.isDigit, Bool.and_eq_true, decide_eq_true_eq, Char.le_def, ge_iff_le]

-- A reader of numbers takes all it can, so what it leaves must not go on with the number.
def NoDigit (rest : List Char) : Prop := ∀ c ∈ rest.head?, c.isDigit = false

def Stops (rest : List Char) : Prop :=
  NoDigit rest ∧ ∀ c ∈ rest.head?, c ≠ '.' ∧ c ≠ 'e' ∧ c ≠ 'E'

section Digits

theorem readDigits?_eq (text : List Char) :
    readDigits? text = if text.takeWhile isDigit = [] then none
      else some (text.takeWhile isDigit, text.dropWhile isDigit) := by
  unfold readDigits?
  cases text.takeWhile isDigit <;> simp

theorem readDigits?_sound {text digits rest : List Char}
    (h : readDigits? text = some (digits, rest)) : Digits digits ∧ text = digits ++ rest := by
  rw [readDigits?_eq] at h
  split at h
  · cases h
  · rename_i hne
    cases h
    refine ⟨⟨hne, fun c hc => ?_⟩, List.takeWhile_append_dropWhile.symm⟩
    rw [← isDigit_eq]
    exact List.all_eq_true.mp List.all_takeWhile c hc

theorem readDigits?_complete {digits rest : List Char} (h : Digits digits) (hrest : NoDigit rest) :
    readDigits? (digits ++ rest) = some (digits, rest) := by
  have hall : ∀ c ∈ digits, isDigit c = true := fun c hc => (isDigit_eq c).trans (h.2 c hc)
  have hstop : rest.takeWhile isDigit = [] ∧ rest.dropWhile isDigit = rest := by
    cases rest with
    | nil => simp
    | cons c rest =>
        have hc : isDigit c = false := (isDigit_eq c).trans (hrest c rfl)
        simp [hc]
  rw [readDigits?_eq, List.takeWhile_append_of_pos hall, List.dropWhile_append_of_pos hall,
    hstop.1, hstop.2, List.append_nil, if_neg h.1]

theorem readWhole?_sound {text digits rest : List Char}
    (h : readWhole? text = some (digits, rest)) : Whole digits ∧ text = digits ++ rest := by
  simp only [readWhole?, Option.bind_eq_bind, Option.bind_eq_some_iff, Prod.exists] at h
  obtain ⟨digits', rest', hread, h⟩ := h
  obtain ⟨hdigits, rfl⟩ := readDigits?_sound hread
  split at h
  · cases h
  · rename_i hzero
    cases h
    refine ⟨⟨hdigits, fun hhead => ?_⟩, rfl⟩
    obtain ⟨tail, rfl⟩ : ∃ tail, digits = '0' :: tail := by
      cases digits with
      | nil => cases hhead
      | cons c tail =>
          cases hhead
          exact ⟨tail, rfl⟩
    cases tail with
    | nil => rfl
    | cons d tail => exact absurd rfl (hzero d tail)

theorem readWhole?_complete {digits rest : List Char} (h : Whole digits) (hrest : NoDigit rest) :
    readWhole? (digits ++ rest) = some (digits, rest) := by
  simp only [readWhole?, readDigits?_complete h.1 hrest, Option.bind_eq_bind, Option.bind_some]
  split
  · rename_i c tail
    have hlone := h.2 rfl
    cases hlone
  · rfl

end Digits

section Parts

theorem readFraction?_sound {text rest : List Char} {fraction : Option (List Char)}
    (h : readFraction? text = some (fraction, rest)) :
    ∃ fractionText, Fraction fraction fractionText ∧ text = fractionText ++ rest := by
  unfold readFraction? at h
  split at h
  · simp only [Option.bind_eq_bind, Option.bind_eq_some_iff, Prod.exists, Option.pure_def,
      Option.some.injEq, Prod.mk.injEq] at h
    obtain ⟨digits, rest', hread, rfl, rfl⟩ := h
    obtain ⟨hdigits, rfl⟩ := readDigits?_sound hread
    exact ⟨_, .some hdigits, rfl⟩
  · cases h
    exact ⟨_, .none, rfl⟩

theorem readFraction?_complete {fractionText rest : List Char} {fraction : Option (List Char)}
    (h : Fraction fraction fractionText) (hrest : NoDigit rest)
    (hpoint : ∀ c ∈ rest.head?, c ≠ '.') :
    readFraction? (fractionText ++ rest) = some (fraction, rest) := by
  cases h with
  | none =>
      unfold readFraction?
      split
      · rename_i tail htail
        rw [List.nil_append] at htail
        exact absurd rfl (hpoint '.' (htail ▸ rfl))
      · rfl
  | some hdigits => simp [readFraction?, readDigits?_complete hdigits hrest]

theorem readSign_cases (text : List Char) :
    (∃ tail, text = '-' :: tail ∧ readSign text = (true, tail)) ∨
      (∃ tail, text = '+' :: tail ∧ readSign text = (false, tail)) ∨
      readSign text = (false, text) := by
  unfold readSign
  split
  · exact .inl ⟨_, rfl, rfl⟩
  · exact .inr (.inl ⟨_, rfl, rfl⟩)
  · exact .inr (.inr rfl)

theorem readExponent?_sound {text rest : List Char} {exponent : Option (Bool × List Char)}
    (h : readExponent? text = some (exponent, rest)) :
    ∃ exponentText, Exponent exponent exponentText ∧ text = exponentText ++ rest := by
  unfold readExponent? at h
  split at h
  · cases h
    exact ⟨[], .none, rfl⟩
  · rename_i e tail
    split at h
    · rename_i he
      simp only [Option.bind_eq_bind, Option.bind_eq_some_iff, Prod.exists, Option.pure_def,
        Option.some.injEq, Prod.mk.injEq] at h
      obtain ⟨digits, rest', hread, rfl, rfl⟩ := h
      obtain ⟨hdigits, hsign⟩ := readDigits?_sound hread
      rcases readSign_cases tail with ⟨after, rfl, hread⟩ | ⟨after, rfl, hread⟩ | hread
      · rw [hread] at hsign ⊢
        subst hsign
        exact ⟨_, .minus he hdigits, rfl⟩
      · rw [hread] at hsign ⊢
        subst hsign
        exact ⟨_, .plus he hdigits, rfl⟩
      · rw [hread] at hsign ⊢
        subst hsign
        exact ⟨_, .bare he hdigits, rfl⟩
    · cases h
      exact ⟨[], .none, rfl⟩

-- A digit is no sign.
theorem readSign_digits {digits : List Char} (h : Digits digits) (rest : List Char) :
    readSign (digits ++ rest) = (false, digits ++ rest) := by
  obtain ⟨c, tail, rfl⟩ := List.exists_cons_of_ne_nil h.1
  have hc : c.isDigit := h.2 c List.mem_cons_self
  unfold readSign
  split
  · rename_i heq
    cases heq
    cases hc
  · rename_i heq
    cases heq
    cases hc
  · rfl

theorem readExponent?_complete {exponentText rest : List Char}
    {exponent : Option (Bool × List Char)} (h : Exponent exponent exponentText)
    (hrest : Stops rest) :
    readExponent? (exponentText ++ rest) = some (exponent, rest) := by
  cases h with
  | none =>
      cases rest with
      | nil => rfl
      | cons c rest =>
          have hc := (hrest.2 c rfl).2
          simp [readExponent?, hc]
  | bare he hdigits =>
      simp [readExponent?, readSign_digits hdigits, he, readDigits?_complete hdigits hrest.1]
  | plus he hdigits => simp [readExponent?, readSign, he, readDigits?_complete hdigits hrest.1]
  | minus he hdigits => simp [readExponent?, readSign, he, readDigits?_complete hdigits hrest.1]

-- What stands behind the digits of a number does not start with a digit.
theorem Exponent.noDigit {exponentText rest : List Char} {exponent : Option (Bool × List Char)}
    (h : Exponent exponent exponentText) (hrest : Stops rest) :
    NoDigit (exponentText ++ rest) ∧ ∀ c ∈ (exponentText ++ rest).head?, c ≠ '.' := by
  cases h with
  | none => exact ⟨hrest.1, fun c hc => (hrest.2 c hc).1⟩
  | bare he _ => rcases he with rfl | rfl <;> simp [NoDigit]
  | plus he _ => rcases he with rfl | rfl <;> simp [NoDigit]
  | minus he _ => rcases he with rfl | rfl <;> simp [NoDigit]

theorem Fraction.noDigit {fractionText rest : List Char} {fraction : Option (List Char)}
    (h : Fraction fraction fractionText) (hrest : NoDigit rest) :
    NoDigit (fractionText ++ rest) := by
  cases h with
  | none => exact hrest
  | some _ => simp [NoDigit]

end Parts

section Literals

theorem exists_signText (text : List Char) :
    ∃ negative unsigned, text = signText negative ++ unsigned ∧
      (negative = false → unsigned.head? ≠ some '-') := by
  by_cases h : text.head? = some '-'
  · obtain ⟨unsigned, rfl⟩ := List.head?_eq_some_iff.mp h
    exact ⟨true, unsigned, rfl, by simp⟩
  · exact ⟨false, text, rfl, fun _ => h⟩

theorem readNumber?_eq {negative : Bool} {unsigned : List Char}
    (h : negative = false → unsigned.head? ≠ some '-') :
    readNumber? (signText negative ++ unsigned) = do
      let (whole, text) ← readWhole? unsigned
      let (fraction, text) ← readFraction? text
      let (exponent, text) ← readExponent? text
      return (⟨negative, whole, fraction, exponent⟩, text) := by
  cases negative with
  | true => rfl
  | false =>
      cases unsigned with
      | nil => rfl
      | cons c rest =>
          have hc : c ≠ '-' := fun hc => h rfl (hc ▸ rfl)
          simp [readNumber?, signText, hc]

theorem readNumber?_sound {text rest : List Char} {literal : Literal}
    (h : readNumber? text = some (literal, rest)) :
    ∃ number, literal.Written number ∧ text = number ++ rest := by
  obtain ⟨negative, unsigned, rfl, hsign⟩ := exists_signText text
  simp only [readNumber?_eq hsign, Option.bind_eq_bind, Option.bind_eq_some_iff, Prod.exists,
    Option.pure_def, Option.some.injEq, Prod.mk.injEq] at h
  obtain ⟨whole, _, hread, fraction, _, hread', exponent, _, hread'', rfl, rfl⟩ := h
  obtain ⟨hwhole, rfl⟩ := readWhole?_sound hread
  obtain ⟨fractionText, hfraction, rfl⟩ := readFraction?_sound hread'
  obtain ⟨exponentText, hexponent, rfl⟩ := readExponent?_sound hread''
  exact ⟨_, .mk hwhole hfraction hexponent, by simp only [List.append_assoc]⟩

theorem Digits.head?_ne_minus {digits : List Char} (h : Digits digits) (rest : List Char) :
    (digits ++ rest).head? ≠ some '-' := by
  obtain ⟨c, tail, rfl⟩ := List.exists_cons_of_ne_nil h.1
  have hc : c.isDigit := h.2 c List.mem_cons_self
  rintro hhead
  cases hhead
  cases hc

theorem readNumber?_complete {number rest : List Char} {literal : Literal}
    (h : literal.Written number) (hrest : Stops rest) :
    readNumber? (number ++ rest) = some (literal, rest) := by
  cases h with
  | mk hwhole hfraction hexponent =>
      have hbehind := hexponent.noDigit hrest
      simp only [List.append_assoc]
      rw [readNumber?_eq fun _ => hwhole.1.head?_ne_minus _,
        readWhole?_complete hwhole (hfraction.noDigit hbehind.1)]
      simp only [Option.bind_eq_bind, Option.bind_some,
        readFraction?_complete hfraction hbehind.1 hbehind.2,
        readExponent?_complete hexponent hrest]
      rfl

-- A number that is its whole part and nothing else.
theorem written_whole_iff (whole number : List Char) :
    Literal.Written ⟨false, whole, none, none⟩ number ↔ Whole number ∧ number = whole := by
  have htext : signText false ++ whole ++ [] ++ [] = whole := by simp [signText]
  constructor
  · intro h
    cases h with
    | mk hwhole hfraction hexponent =>
        cases hfraction
        cases hexponent
        rw [htext]
        exact ⟨hwhole, rfl⟩
  · rintro ⟨hwhole, rfl⟩
    have hwritten := @Literal.Written.mk false _ _ _ _ _ hwhole .none .none
    rwa [htext] at hwritten

-- A number shows itself by its first character.
theorem Literal.Written.exists_cons {literal : Literal} {number : List Char}
    (h : literal.Written number) : ∃ c tail, number = c :: tail ∧ startsNumber c = true := by
  cases h with
  | @mk negative whole fractionText exponentText _ _ hwhole =>
      cases negative with
      | true => exact ⟨'-', _, rfl, rfl⟩
      | false =>
          obtain ⟨c, tail, rfl⟩ := List.exists_cons_of_ne_nil hwhole.1.1
          have hc : c.isDigit := hwhole.1.2 c List.mem_cons_self
          refine ⟨c, _, rfl, ?_⟩
          simp [startsNumber, isDigit_eq, hc]

end Literals

section Values

theorem takeFitting_sound {limit acc n : Nat} {digits : List Char} (hacc : acc ≤ limit)
    (h : takeFitting limit acc digits = (n, 0)) :
    Nat.ofDigitChars 10 digits acc = n ∧ n ≤ limit := by
  induction digits generalizing acc with
  | nil =>
      cases h
      exact ⟨rfl, hacc⟩
  | cons c digits ih =>
      simp only [takeFitting] at h
      split at h
      · rename_i hnext
        have hdigit : acc * 10 + digitValue c = 10 * acc + (c.toNat - '0'.toNat) := by
          rw [Nat.mul_comm]
          rfl
        rw [Nat.ofDigitChars_cons, ← hdigit]
        exact ih hnext h
      · cases h

theorem le_ofDigitChars (digits : List Char) (acc : Nat) :
    acc ≤ Nat.ofDigitChars 10 digits acc := by
  rw [Nat.ofDigitChars_eq_ofDigitChars_zero]
  exact Nat.le_add_right_of_le (Nat.le_mul_of_pos_left _ (Nat.pow_pos (by decide)))

theorem takeFitting_complete {limit acc : Nat} {digits : List Char}
    (h : Nat.ofDigitChars 10 digits acc ≤ limit) :
    takeFitting limit acc digits = (Nat.ofDigitChars 10 digits acc, 0) := by
  induction digits generalizing acc with
  | nil => rfl
  | cons c digits ih =>
      have hdigit : acc * 10 + digitValue c = 10 * acc + (c.toNat - '0'.toNat) := by
        rw [Nat.mul_comm]
        rfl
      rw [Nat.ofDigitChars_cons, ← hdigit] at h ⊢
      have hnext : acc * 10 + digitValue c ≤ limit := (le_ofDigitChars digits _).trans h
      simp only [takeFitting, if_pos hnext]
      exact ih h

-- Only an integer without a sign is read as a natural number, and only if 64 bits hold it.
theorem Literal.value?_sound {literal : Literal} {n : Nat}
    (h : literal.value? = some (.natural n)) :
    literal = ⟨false, literal.whole, none, none⟩ ∧
      Nat.ofDigitChars 10 literal.whole 0 = n ∧ n ≤ significandLimit := by
  obtain ⟨negative, whole, fraction, exponent⟩ := literal
  cases hfit : takeFitting significandLimit 0 whole with
  | mk value left =>
      simp only [value?, hfit, isInteger, Bool.and_eq_true, Option.isNone_iff_eq_none] at h
      split at h
      · rename_i hnatural
        obtain ⟨⟨rfl, rfl⟩, rfl, hsign⟩ := hnatural
        cases h
        have hvalue := takeFitting_sound (Nat.zero_le _) hfit
        simp only [Bool.not_eq_true'] at hsign
        exact ⟨by rw [hsign], hvalue⟩
      split at h
      · cases h
      · simp at h

theorem Literal.value?_complete {whole : List Char}
    (h : Nat.ofDigitChars 10 whole 0 ≤ significandLimit) :
    Literal.value? ⟨false, whole, none, none⟩ =
      some (.natural (Nat.ofDigitChars 10 whole 0)) := by
  simp [value?, takeFitting_complete h, isInteger]

end Values

end NativeContracts.Json
