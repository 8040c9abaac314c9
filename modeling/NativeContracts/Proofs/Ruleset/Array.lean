import NativeContracts.Proofs.Ruleset.Field

namespace NativeContracts.Ruleset

open Json

-- The items give the first of the fields in their order, and the others stay as they were.
structure Fills (fields : List Field) (start : Ruleset) (items : List Item) (r : Ruleset) :
    Prop where
  short : items.length ≤ fields.length
  given : ∀ pair ∈ items.zip fields, pair.2.Given pair.1.value r
  other : ∀ field, field ∉ fields.take items.length → field.Agree r start

theorem fills_nil_iff (fields : List Field) (start r : Ruleset) :
    Fills fields start [] r ↔ r = start := by
  constructor
  · intro h
    exact Field.eq_of_agree fun field => h.other field (by simp)
  · rintro rfl
    exact ⟨Nat.zero_le _, by simp, fun field _ => .refl field _⟩

variable {field : Field} {fields : List Field} {start middle r : Ruleset} {item : Item}
  {items : List Item}

-- Filling the first field and then the others is filling them all.
theorem fills_cons_iff (hgiven : field.Given item.value middle)
    (hothers : ∀ other : Field, other ≠ field → other.Agree middle start)
    (hfresh : field ∉ fields) :
    Fills fields middle items r ↔ Fills (field :: fields) start (item :: items) r := by
  constructor
  · intro h
    refine ⟨Nat.succ_le_succ h.short, ?_, fun other hother => ?_⟩
    · rw [List.zip_cons_cons]
      refine List.forall_mem_cons.mpr ⟨?_, h.given⟩
      exact hgiven.of_agree (h.other field fun hmem => hfresh (List.mem_of_mem_take hmem))
    · simp only [List.length_cons, List.take_succ_cons, List.mem_cons, not_or] at hother
      exact (h.other other hother.2).trans (hothers other hother.1)
  · intro h
    have hall := h.given
    rw [List.zip_cons_cons] at hall
    obtain ⟨hfirst, hrest⟩ := List.forall_mem_cons.mp hall
    refine ⟨Nat.le_of_succ_le_succ h.short, hrest, fun other hother => ?_⟩
    by_cases heq : other = field
    · rw [heq]
      exact hfirst.agree hgiven
    · have hkept := h.other other (by simp [heq, hother])
      exact hkept.trans (hothers other heq).symm

theorem readElements_sound {text rest : List Char} (hnodup : fields.Nodup)
    (h : readElements fields start text = .ok (r, rest)) :
    ∃ items inner, items ≠ [] ∧ Sequence (items.map Item.text) inner ∧
      (∀ item ∈ items, item.Spaced) ∧ Fills fields start items r ∧ text = inner ++ ']' :: rest := by
  induction fields generalizing start text with
  | nil => cases h
  | cons field fields ih =>
      obtain ⟨hfresh, hnodup⟩ := List.nodup_cons.mp hnodup
      obtain ⟨⟨middle, tail⟩, hread, hnext⟩ := bind_eq_ok_iff.mp h
      obtain ⟨before, value, hbefore, hgiven, hothers, rfl⟩ := Field.read_sound hread
      obtain ⟨after, hafter, htail⟩ := exists_blanks tail
      let item : Item := ⟨before, value, after⟩
      have hspaced : item.Spaced := ⟨hbefore, hafter⟩
      have hwhole : before ++ value ++ tail = item.text ++ skipBlanks tail := by
        conv_lhs => rw [htail]
        simp [item, Item.text]
      dsimp only at hnext
      split at hnext
      · rename_i last hclose
        cases hnext
        refine ⟨[item], _, List.cons_ne_nil _ _, .one _, List.forall_mem_singleton.mpr hspaced, ?_,
          hclose ▸ hwhole⟩
        exact (fills_cons_iff hgiven hothers hfresh).mp ((fills_nil_iff _ _ _).mpr rfl)
      · rename_i next hcomma
        obtain ⟨items, inner, hne, hsequence, hitems, hfills, rfl⟩ := ih hnodup hnext
        refine ⟨item :: items, _, List.cons_ne_nil _ _,
          .cons (mt List.map_eq_nil_iff.mp hne) hsequence,
          List.forall_mem_cons.mpr ⟨hspaced, hitems⟩,
          (fills_cons_iff hgiven hothers hfresh).mp hfills, ?_⟩
        rw [hwhole, hcomma]
        simp
      · cases hnext

-- One item is read, and what follows decides whether another one is to come.
theorem readElements_item (hspaced : item.Spaced) (hgiven : field.Given item.value middle)
    (hothers : ∀ other : Field, other ≠ field → other.Agree middle start) {c : Char}
    (hc : c = ',' ∨ c = ']') (rest : List Char) :
    readElements (field :: fields) start (item.text ++ c :: rest) =
      if c = ',' then readElements fields middle rest else .ok (middle, rest) := by
  have hmem : c ∈ [',', ']', '\x7d'] := by rcases hc with rfl | rfl <;> decide
  have hblank : isBlank c = false := by rcases hc with rfl | rfl <;> decide
  have hread := Field.read_complete hspaced.1 hgiven hothers (stops_of_blanks hspaced.2 hmem rest)
  simp only [Item.text, List.append_assoc, readElements] at hread ⊢
  rw [hread]
  simp only [bind, Except.bind, skipBlanks_append_cons hspaced.2 hblank]
  rcases hc with rfl | rfl <;> rfl

theorem readElements_complete {inner : List Char} (hne : items ≠ [])
    (hsequence : Sequence (items.map Item.text) inner) (hspaced : ∀ item ∈ items, item.Spaced)
    (hnodup : fields.Nodup) (hfills : Fills fields start items r) (rest : List Char) :
    readElements fields start (inner ++ ']' :: rest) = .ok (r, rest) := by
  induction items generalizing fields start inner with
  | nil => exact absurd rfl hne
  | cons item items ih =>
      obtain ⟨hspace, hspaced⟩ := List.forall_mem_cons.mp hspaced
      cases fields with
      | nil => exact absurd hfills.short (by simp)
      | cons field fields =>
          obtain ⟨hfresh, hnodup⟩ := List.nodup_cons.mp hnodup
          obtain ⟨middle, hagree, hothers⟩ := field.exists_update start r
          have hgiven := (hfills.given (item, field) (by simp)).of_agree hagree
          have hmiddle := (fills_cons_iff hgiven hothers hfresh).mpr hfills
          cases items with
          | nil =>
              cases hsequence
              rw [readElements_item hspace hgiven hothers (.inr rfl), if_neg (by decide),
                (fills_nil_iff _ _ _).mp hmiddle]
          | cons next items =>
              cases hsequence with
              | more hsequence =>
                  rw [List.append_assoc, List.cons_append,
                    readElements_item hspace hgiven hothers (.inl rfl), if_pos rfl]
                  exact ih (List.cons_ne_nil _ _) hsequence hspaced hnodup hmiddle

end NativeContracts.Ruleset
