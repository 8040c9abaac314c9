import NativeContracts.Json.Skipping
import NativeContracts.Proofs.Json.Number
import Mathlib.Data.Bool.AllAny

namespace NativeContracts.Json

section Grammar

theorem Sequence.cons {first text : List Char} {rest : List (List Char)} (hne : rest ≠ [])
    (h : Sequence rest text) : Sequence (first :: rest) (first ++ ',' :: text) := by
  obtain ⟨next, rest, rfl⟩ := List.exists_cons_of_ne_nil hne
  exact .more h

theorem Sequence.exists_append {first text : List Char} {rest : List (List Char)}
    (h : Sequence (first :: rest) text) : ∃ more, text = first ++ more := by
  cases h with
  | one => exact ⟨[], (List.append_nil first).symm⟩
  | more => exact ⟨_, rfl⟩

-- What can follow a value inside brackets does not go on with a number.
theorem stops_of_blanks {after : List Char} {c : Char} (hafter : Blanks after)
    (hc : c ∈ [',', ']', '\x7d']) (rest : List Char) : Stops (after ++ c :: rest) := by
  have hhead : ∀ d ∈ (after ++ c :: rest).head?, d ∈ [' ', '\t', '\n', '\r', ',', ']', '\x7d'] := by
    intro d hd
    cases after with
    | nil =>
        cases hd
        exact List.mem_append_right [' ', '\t', '\n', '\r'] hc
    | cons first after =>
        cases hd
        exact List.mem_append_left [',', ']', '\x7d'] (hafter _ List.mem_cons_self)
  have hall : ∀ d ∈ [' ', '\t', '\n', '\r', ',', ']', '\x7d'],
      d.isDigit = false ∧ d ≠ '.' ∧ d ≠ 'e' ∧ d ≠ 'E' :=
    List.all_iff_forall_prop.mp (by decide)
  exact ⟨fun d hd => (hall d (hhead d hd)).1, fun d hd => (hall d (hhead d hd)).2⟩

-- A number starts like nothing else.
theorem ne_of_startsNumber {c d : Char} (h : startsNumber c = true)
    (hd : startsNumber d = false) : c ≠ d := by
  rintro rfl
  rw [h] at hd
  cases hd

theorem not_blank_of_startsNumber {c : Char} (h : startsNumber c = true) : isBlank c = false := by
  by_contra hblank
  have hmem := (isBlank_iff c).mp (Bool.not_eq_false _ ▸ hblank)
  have hall : ∀ d ∈ [' ', '\t', '\n', '\r'], startsNumber d = false :=
    List.all_iff_forall_prop.mp (by decide)
  exact ne_of_startsNumber h (hall c hmem) rfl

-- No value starts with a blank, and none with a closing bracket.
theorem Value.exists_cons {value : List Char} (h : Value value) :
    ∃ c tail, value = c :: tail ∧ isBlank c = false ∧ c ≠ ']' := by
  cases h with
  | word hword =>
      simp only [List.mem_cons, List.not_mem_nil, or_false] at hword
      rcases hword with rfl | rfl | rfl <;> exact ⟨_, _, rfl, by decide, by decide⟩
  | string => exact ⟨_, _, rfl, by decide, by decide⟩
  | number hwritten =>
      obtain ⟨c, tail, rfl, hc⟩ := hwritten.exists_cons
      exact ⟨c, tail, rfl, not_blank_of_startsNumber hc, ne_of_startsNumber hc (by decide)⟩
  | array => exact ⟨_, _, rfl, by decide, by decide⟩
  | object => exact ⟨_, _, rfl, by decide, by decide⟩

theorem Value.empty_array {blanks : List Char} (h : Blanks blanks) :
    Value ('[' :: blanks ++ [']']) :=
  @Value.array [] _ (.none h) (List.forall_mem_nil _) (List.forall_mem_nil _)

theorem Value.empty_object {blanks : List Char} (h : Blanks blanks) :
    Value ('\x7b' :: blanks ++ ['\x7d']) :=
  @Value.object [] _ (.none h) (List.forall_mem_nil _) (List.forall_mem_nil _)
    (List.forall_mem_nil _)

theorem Entry.text_append (entry : Entry) (rest : List Char) :
    entry.text ++ rest = entry.before ++ '"' :: (entry.key ++ '"' ::
      (entry.between ++ ':' :: (entry.item.text ++ rest))) := by
  simp [Entry.text]

theorem Entry.skipBlanks_text_append (entry : Entry) (hspaced : entry.Spaced) (rest : List Char) :
    ∃ tail, skipBlanks (entry.text ++ rest) = '"' :: tail := by
  rw [entry.text_append, skipBlanks_append_cons hspaced.1 (by decide)]
  exact ⟨_, rfl⟩

theorem Entry.length_text (entry : Entry) : entry.text.length =
    entry.before.length + entry.key.length + entry.between.length + entry.item.text.length + 3 := by
  simp only [Entry.text, List.length_append, List.length_cons]
  omega

end Grammar

section Blanks

-- All three functions begin with the blanks, so it makes no difference if they are gone already.
theorem skipValueWith_skipBlanks (fuel : Nat) (text : List Char) :
    skipValueWith fuel (skipBlanks text) = skipValueWith fuel text := by
  cases fuel with
  | zero => rfl
  | succ fuel => simp only [skipValueWith, skipBlanks_skipBlanks]

theorem skipElementsWith_skipBlanks (fuel : Nat) (text : List Char) :
    skipElementsWith fuel (skipBlanks text) = skipElementsWith fuel text := by
  cases fuel with
  | zero => rfl
  | succ fuel => simp only [skipElementsWith, skipValueWith_skipBlanks]

theorem skipMembersWith_skipBlanks (fuel : Nat) (text : List Char) :
    skipMembersWith fuel (skipBlanks text) = skipMembersWith fuel text := by
  cases fuel with
  | zero => rfl
  | succ fuel => simp only [skipMembersWith, skipBlanks_skipBlanks]

end Blanks

section Soundness

-- What each of the three functions has passed over when it leaves `rest`.
def ValueSound (fuel : Nat) : Prop :=
  ∀ text rest, skipValueWith fuel text = some rest →
    ∃ blanks value, Blanks blanks ∧ Value value ∧ text = blanks ++ value ++ rest

def ElementsSound (fuel : Nat) : Prop :=
  ∀ text rest, skipElementsWith fuel text = some rest →
    ∃ items inner, items ≠ [] ∧ Sequence (items.map Item.text) inner ∧
      (∀ item ∈ items, item.Spaced ∧ Value item.value) ∧ text = inner ++ ']' :: rest

def MembersSound (fuel : Nat) : Prop :=
  ∀ text rest, skipMembersWith fuel text = some rest →
    ∃ entries inner, entries ≠ [] ∧ Sequence (entries.map Entry.text) inner ∧
      (∀ entry ∈ entries, entry.Spaced ∧ Body entry.key ∧ Value entry.item.value) ∧
      text = inner ++ '\x7d' :: rest

theorem exists_word {c : Char} {word tail rest : List Char}
    (h : afterWord? word tail = some rest)
    (hmem : c :: word ∈ [['n', 'u', 'l', 'l'], ['t', 'r', 'u', 'e'], ['f', 'a', 'l', 's', 'e']]) :
    ∃ value, Value value ∧ c :: tail = value ++ rest :=
  ⟨c :: word, .word hmem, congrArg (c :: ·) ((afterWord?_eq_some_iff _ _ _).mp h)⟩

theorem ElementsSound.exists_array {fuel : Nat} {tail rest : List Char}
    (helements : ElementsSound fuel) (h : skipElementsWith fuel tail = some rest) :
    ∃ value, Value value ∧ '[' :: tail = value ++ rest := by
  obtain ⟨items, inner, -, hsequence, hitems, rfl⟩ := helements _ _ h
  exact ⟨_, .array hsequence (fun item hmem => (hitems item hmem).1)
    (fun item hmem => (hitems item hmem).2), by simp⟩

theorem MembersSound.exists_object {fuel : Nat} {tail rest : List Char}
    (hmembers : MembersSound fuel) (h : skipMembersWith fuel tail = some rest) :
    ∃ value, Value value ∧ '\x7b' :: tail = value ++ rest := by
  obtain ⟨entries, inner, -, hsequence, hentries, rfl⟩ := hmembers _ _ h
  exact ⟨_, .object hsequence (fun entry hmem => (hentries entry hmem).1)
    (fun entry hmem => (hentries entry hmem).2.1)
    (fun entry hmem => (hentries entry hmem).2.2), by simp⟩

theorem valueSound_succ {fuel : Nat} (helements : ElementsSound fuel)
    (hmembers : MembersSound fuel) : ValueSound (fuel + 1) := by
  intro text rest h
  obtain ⟨blanks, hblanks, htext⟩ := exists_blanks text
  suffices hvalue : ∃ value, Value value ∧ skipBlanks text = value ++ rest by
    obtain ⟨value, hvalue, hskip⟩ := hvalue
    exact ⟨blanks, value, hblanks, hvalue, by rw [List.append_assoc, ← hskip, ← htext]⟩
  simp only [skipValueWith] at h
  split at h
  · cases h
  · rename_i tail hskip
    exact hskip ▸ exists_word h (by decide)
  · rename_i tail hskip
    exact hskip ▸ exists_word h (by decide)
  · rename_i tail hskip
    exact hskip ▸ exists_word h (by decide)
  · rename_i tail hskip
    obtain ⟨body, hbody, rfl⟩ := (skipString_eq_some_iff _ _).mp h
    exact ⟨_, .string hbody, by rw [hskip]; simp⟩
  · rename_i tail hskip
    obtain ⟨inside, hinside, htail⟩ := exists_blanks tail
    split at h
    · rename_i after hclose
      cases h
      refine ⟨_, .empty_array hinside, ?_⟩
      rw [hskip, htail, hclose]
      simp
    · rw [skipElementsWith_skipBlanks] at h
      exact hskip ▸ helements.exists_array h
  · rename_i tail hskip
    obtain ⟨inside, hinside, htail⟩ := exists_blanks tail
    split at h
    · rename_i after hclose
      cases h
      refine ⟨_, .empty_object hinside, ?_⟩
      rw [hskip, htail, hclose]
      simp
    · rw [skipMembersWith_skipBlanks] at h
      exact hskip ▸ hmembers.exists_object h
  · rename_i c tail _ _ _ _ _ _ hskip
    split at h
    · obtain ⟨⟨literal, after⟩, hread, rfl⟩ := Option.map_eq_some_iff.mp h
      obtain ⟨number, hwritten, hnumber⟩ := readNumber?_sound hread
      exact ⟨number, .number hwritten, hskip.trans hnumber⟩
    · cases h

theorem elementsSound_succ {fuel : Nat} (hvalue : ValueSound fuel)
    (helements : ElementsSound fuel) : ElementsSound (fuel + 1) := by
  intro text rest h
  simp only [skipElementsWith] at h
  split at h
  · cases h
  rename_i tail hskip
  obtain ⟨before, value, hbefore, hformed, rfl⟩ := hvalue _ _ hskip
  obtain ⟨after, hafter, htail⟩ := exists_blanks tail
  have hitem : (Item.mk before value after).Spaced ∧ Value (Item.mk before value after).value :=
    ⟨⟨hbefore, hafter⟩, hformed⟩
  split at h
  · rename_i last hclose
    cases h
    refine ⟨[⟨before, value, after⟩], _, List.cons_ne_nil _ _, .one _,
      List.forall_mem_singleton.mpr hitem, ?_⟩
    rw [htail, hclose]
    simp [Item.text]
  · rename_i next hcomma
    obtain ⟨items, inner, hne, hsequence, hitems, rfl⟩ := helements _ _ h
    refine ⟨⟨before, value, after⟩ :: items, _, List.cons_ne_nil _ _,
      .cons (mt List.map_eq_nil_iff.mp hne) hsequence, List.forall_mem_cons.mpr ⟨hitem, hitems⟩, ?_⟩
    rw [htail, hcomma]
    simp [Item.text]
  · cases h

theorem membersSound_succ {fuel : Nat} (hvalue : ValueSound fuel)
    (hmembers : MembersSound fuel) : MembersSound (fuel + 1) := by
  intro text rest h
  simp only [skipMembersWith] at h
  obtain ⟨before, hbefore, htext⟩ := exists_blanks text
  split at h
  · rename_i opened hopen
    split at h
    · cases h
    rename_i closed hstring
    obtain ⟨key, hkey, rfl⟩ := (skipString_eq_some_iff _ _).mp hstring
    obtain ⟨between, hbetween, hclosed⟩ := exists_blanks closed
    split at h
    · rename_i valued hcolon
      split at h
      · cases h
      rename_i tail hskip
      obtain ⟨before', value, hbefore', hformed, rfl⟩ := hvalue _ _ hskip
      obtain ⟨after, hafter, htail⟩ := exists_blanks tail
      let entry : Entry := ⟨before, key, between, ⟨before', value, after⟩⟩
      have hentry : entry.Spaced ∧ Body entry.key ∧ Value entry.item.value :=
        ⟨⟨hbefore, hbetween, hbefore', hafter⟩, hkey, hformed⟩
      have hwhole : text = entry.text ++ skipBlanks tail := by
        rw [htext, hopen, hclosed, hcolon]
        conv_lhs => rw [htail]
        simp [entry, Entry.text, Item.text]
      split at h
      · rename_i last hclose
        cases h
        exact ⟨[entry], _, List.cons_ne_nil _ _, .one _, List.forall_mem_singleton.mpr hentry,
          hclose ▸ hwhole⟩
      · rename_i next hcomma
        obtain ⟨entries, inner, hne, hsequence, hentries, rfl⟩ := hmembers _ _ h
        refine ⟨entry :: entries, _, List.cons_ne_nil _ _,
          .cons (mt List.map_eq_nil_iff.mp hne) hsequence,
          List.forall_mem_cons.mpr ⟨hentry, hentries⟩, ?_⟩
        rw [hwhole, hcomma]
        simp
      · cases h
    · cases h
  · cases h

theorem skipping_sound (fuel : Nat) :
    ValueSound fuel ∧ ElementsSound fuel ∧ MembersSound fuel := by
  induction fuel with
  | zero =>
      refine ⟨?_, ?_, ?_⟩
      · intro text rest h
        cases h
      · intro text rest h
        cases h
      · intro text rest h
        cases h
  | succ fuel ih =>
      obtain ⟨hvalue, helements, hmembers⟩ := ih
      exact ⟨valueSound_succ helements hmembers, elementsSound_succ hvalue helements,
        membersSound_succ hvalue hmembers⟩

end Soundness

section Completeness

-- One unit of fuel for each character is enough for a value.
def PassedOver (value : List Char) : Prop :=
  ∀ blanks rest fuel, Blanks blanks → Stops rest → value.length ≤ fuel →
    skipValueWith fuel (blanks ++ value ++ rest) = some rest

theorem skipValueWith_item {item : Item} (hspaced : item.Spaced) (hvalue : PassedOver item.value)
    {c : Char} (hc : c ∈ [',', ']', '\x7d']) (rest : List Char) {fuel : Nat}
    (hfuel : item.text.length ≤ fuel) :
    skipValueWith fuel (item.text ++ c :: rest) = some (item.after ++ c :: rest) := by
  have hlength : item.value.length ≤ fuel := by
    simp only [Item.text, List.length_append] at hfuel
    omega
  have hskip := hvalue item.before (item.after ++ c :: rest) fuel hspaced.1
    (stops_of_blanks hspaced.2 hc rest) hlength
  simpa only [Item.text, List.append_assoc] using hskip

theorem skipElementsWith_item {item : Item} (hspaced : item.Spaced)
    (hvalue : PassedOver item.value) {c : Char} (hc : c = ',' ∨ c = ']') (rest : List Char)
    {fuel : Nat} (hfuel : item.text.length ≤ fuel) :
    skipElementsWith (fuel + 1) (item.text ++ c :: rest) =
      if c = ',' then skipElementsWith fuel rest else some rest := by
  have hmem : c ∈ [',', ']', '\x7d'] := by rcases hc with rfl | rfl <;> decide
  have hblank : isBlank c = false := by rcases hc with rfl | rfl <;> decide
  simp only [skipElementsWith, skipValueWith_item hspaced hvalue hmem rest hfuel,
    skipBlanks_append_cons hspaced.2 hblank]
  rcases hc with rfl | rfl <;> rfl

theorem skipElementsWith_complete {items : List Item} {inner : List Char} (hne : items ≠ [])
    (hsequence : Sequence (items.map Item.text) inner) (hspaced : ∀ item ∈ items, item.Spaced)
    (hvalue : ∀ item ∈ items, PassedOver item.value) (rest : List Char) {fuel : Nat}
    (hfuel : inner.length < fuel) : skipElementsWith fuel (inner ++ ']' :: rest) = some rest := by
  induction items generalizing inner fuel with
  | nil => exact absurd rfl hne
  | cons item items ih =>
      obtain ⟨fuel, rfl⟩ := Nat.exists_eq_succ_of_ne_zero (Nat.ne_zero_of_lt hfuel)
      obtain ⟨hspace, hspaced⟩ := List.forall_mem_cons.mp hspaced
      obtain ⟨hitem, hvalue⟩ := List.forall_mem_cons.mp hvalue
      cases items with
      | nil =>
          cases hsequence
          exact skipElementsWith_item hspace hitem (.inr rfl) rest (by omega)
      | cons next items =>
          cases hsequence with
          | more hsequence =>
              simp only [List.length_append, List.length_cons] at hfuel
              rw [List.append_assoc, List.cons_append]
              rw [skipElementsWith_item hspace hitem (.inl rfl) _ (by omega), if_pos rfl]
              exact ih (List.cons_ne_nil _ _) hsequence hspaced hvalue (by omega)

-- A member is passed over, and what follows decides whether another one is to come.
theorem skipMembersWith_entry {entry : Entry} (hspaced : entry.Spaced) (hkey : Body entry.key)
    (hvalue : PassedOver entry.item.value) {c : Char} (hc : c = ',' ∨ c = '\x7d')
    (rest : List Char) {fuel : Nat} (hfuel : entry.text.length ≤ fuel) :
    skipMembersWith (fuel + 1) (entry.text ++ c :: rest) =
      if c = ',' then skipMembersWith fuel rest else some rest := by
  have hstring : ∀ tail, skipString (entry.key ++ '"' :: tail) = some tail := fun tail =>
    (skipString_eq_some_iff _ _).mpr ⟨_, hkey, rfl⟩
  have hmem : c ∈ [',', ']', '\x7d'] := by rcases hc with rfl | rfl <;> decide
  have hblank : isBlank c = false := by rcases hc with rfl | rfl <;> decide
  have hlength : entry.item.text.length ≤ fuel := by
    rw [entry.length_text] at hfuel
    omega
  have hskip := skipValueWith_item hspaced.2.2 hvalue hmem rest hlength
  rw [entry.text_append]
  simp only [skipMembersWith, skipBlanks_append_cons hspaced.1 (c := '"') (by decide), hstring,
    skipBlanks_append_cons hspaced.2.1 (c := ':') (by decide), hskip,
    skipBlanks_append_cons hspaced.2.2.2 hblank]
  rcases hc with rfl | rfl <;> rfl

theorem skipMembersWith_complete {entries : List Entry} {inner : List Char} (hne : entries ≠ [])
    (hsequence : Sequence (entries.map Entry.text) inner)
    (hspaced : ∀ entry ∈ entries, entry.Spaced) (hkey : ∀ entry ∈ entries, Body entry.key)
    (hvalue : ∀ entry ∈ entries, PassedOver entry.item.value) (rest : List Char) {fuel : Nat}
    (hfuel : inner.length < fuel) :
    skipMembersWith fuel (inner ++ '\x7d' :: rest) = some rest := by
  induction entries generalizing inner fuel with
  | nil => exact absurd rfl hne
  | cons entry entries ih =>
      obtain ⟨fuel, rfl⟩ := Nat.exists_eq_succ_of_ne_zero (Nat.ne_zero_of_lt hfuel)
      obtain ⟨hspace, hspaced⟩ := List.forall_mem_cons.mp hspaced
      obtain ⟨hbody, hkey⟩ := List.forall_mem_cons.mp hkey
      obtain ⟨hitem, hvalue⟩ := List.forall_mem_cons.mp hvalue
      cases entries with
      | nil =>
          cases hsequence
          exact skipMembersWith_entry hspace hbody hitem (.inr rfl) rest (by omega)
      | cons next entries =>
          cases hsequence with
          | more hsequence =>
              simp only [List.length_append, List.length_cons] at hfuel
              rw [List.append_assoc, List.cons_append]
              rw [skipMembersWith_entry hspace hbody hitem (.inl rfl) _ (by omega), if_pos rfl]
              exact ih (List.cons_ne_nil _ _) hsequence hspaced hkey hvalue (by omega)

-- The first item tells an array from an empty one.
theorem skipBlanks_items {items : List Item} {inner : List Char} (hne : items ≠ [])
    (hsequence : Sequence (items.map Item.text) inner) (hspaced : ∀ item ∈ items, item.Spaced)
    (hvalue : ∀ item ∈ items, Value item.value) (rest : List Char) :
    ∃ c tail, skipBlanks (inner ++ rest) = c :: tail ∧ c ≠ ']' := by
  obtain ⟨item, items, rfl⟩ := List.exists_cons_of_ne_nil hne
  obtain ⟨more, rfl⟩ := hsequence.exists_append
  obtain ⟨c, tail, hcons, hblank, hc⟩ := (hvalue item List.mem_cons_self).exists_cons
  refine ⟨c, tail ++ (item.after ++ (more ++ rest)), ?_, hc⟩
  rw [← skipBlanks_append_cons (hspaced item List.mem_cons_self).1 hblank]
  simp [Item.text, hcons]

theorem skipBlanks_entries {entries : List Entry} {inner : List Char} (hne : entries ≠ [])
    (hsequence : Sequence (entries.map Entry.text) inner)
    (hspaced : ∀ entry ∈ entries, entry.Spaced) (rest : List Char) :
    ∃ tail, skipBlanks (inner ++ rest) = '"' :: tail := by
  obtain ⟨entry, entries, rfl⟩ := List.exists_cons_of_ne_nil hne
  obtain ⟨more, rfl⟩ := hsequence.exists_append
  rw [List.append_assoc]
  exact entry.skipBlanks_text_append (hspaced entry List.mem_cons_self) _

theorem passedOver_of_cons {c : Char} {tail : List Char} (hblank : isBlank c = false)
    (h : ∀ rest fuel, Stops rest → tail.length ≤ fuel →
      skipValueWith (fuel + 1) (c :: (tail ++ rest)) = some rest) : PassedOver (c :: tail) := by
  intro blanks rest fuel hblanks hrest hfuel
  obtain ⟨fuel, rfl⟩ := Nat.exists_eq_succ_of_ne_zero (Nat.ne_zero_of_lt hfuel)
  have hskip : skipBlanks (blanks ++ c :: tail ++ rest) = c :: (tail ++ rest) := by
    rw [List.append_assoc, List.cons_append, skipBlanks_append_cons hblanks hblank]
  rw [← skipValueWith_skipBlanks, hskip]
  exact h rest fuel hrest (Nat.le_of_succ_le_succ hfuel)

theorem passedOver_number {literal : Literal} {number : List Char}
    (h : literal.Written number) : PassedOver number := by
  obtain ⟨c, tail, rfl, hc⟩ := h.exists_cons
  refine passedOver_of_cons (not_blank_of_startsNumber hc) fun rest fuel hrest _ => ?_
  have hother : ∀ d ∈ ['n', 't', 'f', '"', '[', '\x7b'], c ≠ d := by
    have hall : ∀ d ∈ ['n', 't', 'f', '"', '[', '\x7b'], startsNumber d = false :=
      List.all_iff_forall_prop.mp (by decide)
    exact fun d hd => ne_of_startsNumber hc (hall d hd)
  simp only [List.forall_mem_cons] at hother
  have hread : readNumber? (c :: (tail ++ rest)) = some (literal, rest) :=
    readNumber?_complete h hrest
  simp [skipValueWith, skipBlanks_cons (not_blank_of_startsNumber hc), hother, hc, hread]

theorem passedOver_array {items : List Item} {text : List Char}
    (hsequence : Sequence (items.map Item.text) text) (hspaced : ∀ item ∈ items, item.Spaced)
    (hvalue : ∀ item ∈ items, Value item.value)
    (hpassed : ∀ item ∈ items, PassedOver item.value) : PassedOver ('[' :: text ++ [']']) := by
  rw [List.cons_append]
  refine passedOver_of_cons (by decide) fun rest fuel _ hfuel => ?_
  rw [List.append_assoc, List.singleton_append]
  by_cases hne : items = []
  · subst hne
    cases hsequence with
    | none hblanks =>
        simp [skipValueWith, skipBlanks_cons (c := '[') (by decide),
          skipBlanks_append_cons hblanks (c := ']') (by decide)]
  · obtain ⟨c, tail, hcons, hc⟩ := skipBlanks_items hne hsequence hspaced hvalue (']' :: rest)
    simp only [List.length_append, List.length_singleton] at hfuel
    have hlength : text.length < fuel := by omega
    have hskip := skipElementsWith_complete hne hsequence hspaced hpassed rest hlength
    rw [← skipElementsWith_skipBlanks, hcons] at hskip
    simp [skipValueWith, skipBlanks_cons (c := '[') (by decide), hcons, hc, hskip]

theorem passedOver_object {entries : List Entry} {text : List Char}
    (hsequence : Sequence (entries.map Entry.text) text)
    (hspaced : ∀ entry ∈ entries, entry.Spaced) (hkey : ∀ entry ∈ entries, Body entry.key)
    (hpassed : ∀ entry ∈ entries, PassedOver entry.item.value) :
    PassedOver ('\x7b' :: text ++ ['\x7d']) := by
  rw [List.cons_append]
  refine passedOver_of_cons (by decide) fun rest fuel _ hfuel => ?_
  rw [List.append_assoc, List.singleton_append]
  by_cases hne : entries = []
  · subst hne
    cases hsequence with
    | none hblanks =>
        simp [skipValueWith, skipBlanks_cons (c := '\x7b') (by decide),
          skipBlanks_append_cons hblanks (c := '\x7d') (by decide)]
  · obtain ⟨tail, hcons⟩ := skipBlanks_entries hne hsequence hspaced ('\x7d' :: rest)
    simp only [List.length_append, List.length_singleton] at hfuel
    have hlength : text.length < fuel := by omega
    have hskip := skipMembersWith_complete hne hsequence hspaced hkey hpassed rest hlength
    rw [← skipMembersWith_skipBlanks, hcons] at hskip
    simp [skipValueWith, skipBlanks_cons (c := '\x7b') (by decide), hcons, hskip]

-- A nested value is smaller by its brackets, which pays for the two calls that lead to it.
theorem Value.passedOver {value : List Char} (h : Value value) : PassedOver value := by
  induction h with
  | word hword =>
      have hafter : ∀ word rest, afterWord? word (word ++ rest) = some rest := fun word rest =>
        (afterWord?_eq_some_iff word _ rest).mpr rfl
      simp only [List.mem_cons, List.not_mem_nil, or_false] at hword
      rcases hword with rfl | rfl | rfl
      · exact passedOver_of_cons (by decide) fun rest _ _ _ => hafter ['u', 'l', 'l'] rest
      · exact passedOver_of_cons (by decide) fun rest _ _ _ => hafter ['r', 'u', 'e'] rest
      · exact passedOver_of_cons (by decide) fun rest _ _ _ => hafter ['a', 'l', 's', 'e'] rest
  | string hbody =>
      rw [List.cons_append]
      refine passedOver_of_cons (by decide) fun rest fuel _ _ => ?_
      rw [List.append_assoc]
      exact (skipString_eq_some_iff _ _).mpr ⟨_, hbody, rfl⟩
  | number hwritten => exact passedOver_number hwritten
  | array hsequence hspaced hvalue ih => exact passedOver_array hsequence hspaced hvalue ih
  | object hsequence hspaced hkey _ ih => exact passedOver_object hsequence hspaced hkey ih

end Completeness

end NativeContracts.Json
