import NativeContracts.Json.Reader
import NativeContracts.Proofs.Json.Skipping

namespace NativeContracts.Json

theorem readColon_eq_ok_iff (text rest : List Char) :
    readColon text = .ok ((), rest) ↔ ∃ blanks, Blanks blanks ∧ text = blanks ++ ':' :: rest := by
  unfold readColon
  constructor
  · intro h
    obtain ⟨blanks, hblanks, htext⟩ := exists_blanks text
    split at h
    · rename_i tail hskip
      cases h
      exact ⟨blanks, hblanks, hskip ▸ htext⟩
    · cases h
  · rintro ⟨blanks, hblanks, rfl⟩
    simp [skipBlanks_append_cons hblanks (c := ':') (by decide)]

theorem finish_eq_ok_iff (text : List Char) : finish text = .ok () ↔ Blanks text := by
  rw [← skipBlanks_eq_nil_iff, finish]
  cases skipBlanks text <;> simp

theorem readBoolean_eq_ok_iff (text : List Char) (value : Bool) (rest : List Char) :
    readBoolean text = .ok (value, rest) ↔
      ∃ blanks, Blanks blanks ∧ text = blanks ++ booleanText value ++ rest := by
  unfold readBoolean
  constructor
  · intro h
    obtain ⟨blanks, hblanks, htext⟩ := exists_blanks text
    refine ⟨blanks, hblanks, ?_⟩
    rw [List.append_assoc]
    split at h
    · rename_i tail hskip
      split at h
      · rename_i after hafter
        cases h
        rw [htext, hskip, (afterWord?_eq_some_iff _ _ _).mp hafter]
        rfl
      · cases h
    · rename_i tail hskip
      split at h
      · rename_i after hafter
        cases h
        rw [htext, hskip, (afterWord?_eq_some_iff _ _ _).mp hafter]
        rfl
      · cases h
    · cases h
  · rintro ⟨blanks, hblanks, rfl⟩
    cases value with
    | false =>
        simp [booleanText, afterWord?, skipBlanks_append_cons hblanks (c := 'f') (by decide)]
    | true =>
        simp [booleanText, afterWord?, skipBlanks_append_cons hblanks (c := 't') (by decide)]

theorem readWord64_sound {text rest : List Char} {n : UInt64}
    (h : readWord64 text = .ok (n, rest)) :
    ∃ blanks number, Blanks blanks ∧ Whole number ∧ Nat.ofDigitChars 10 number 0 = n.toNat ∧
      text = blanks ++ number ++ rest := by
  obtain ⟨blanks, hblanks, htext⟩ := exists_blanks text
  unfold readWord64 at h
  split at h
  · rename_i c tail hskip
    split at h
    · split at h
      · cases h
      rename_i literal after hread
      obtain ⟨number, hwritten, hnumber⟩ := readNumber?_sound hread
      split at h
      · cases h
      · rename_i value hvalue
        cases h
        obtain ⟨hliteral, hdigits, hle⟩ := Literal.value?_sound hvalue
        rw [hliteral] at hwritten
        obtain ⟨hwhole, rfl⟩ := (written_whole_iff _ _).mp hwritten
        have hword : (UInt64.ofNat value).toNat = value :=
          UInt64.toNat_ofNat_of_lt' (Nat.lt_succ_of_le hle)
        exact ⟨blanks, _, hblanks, hwhole, by rw [hdigits, hword],
          by rw [List.append_assoc, ← hnumber, ← hskip, ← htext]⟩
      · cases h
      · cases h
    · cases h
  · cases h

theorem readWord64_complete {blanks number rest : List Char} {n : UInt64} (hblanks : Blanks blanks)
    (hwhole : Whole number) (hvalue : Nat.ofDigitChars 10 number 0 = n.toNat)
    (hrest : Stops rest) : readWord64 (blanks ++ number ++ rest) = .ok (n, rest) := by
  have hwritten := (written_whole_iff number number).mpr ⟨hwhole, rfl⟩
  have hread := readNumber?_complete hwritten hrest
  have hfits : Nat.ofDigitChars 10 number 0 ≤ significandLimit :=
    hvalue ▸ Nat.le_of_lt_succ n.toNat_lt
  have hnumber := Literal.value?_complete hfits
  obtain ⟨c, tail, rfl, hc⟩ := hwritten.exists_cons
  rw [List.cons_append] at hread
  have hskip := skipBlanks_append_cons hblanks (not_blank_of_startsNumber hc) (tail ++ rest)
  rw [List.append_assoc, List.cons_append]
  simp [readWord64, hskip, hc, hread, hnumber, hvalue]

end NativeContracts.Json
