import NativeContracts.Proofs.Ruleset.Field

namespace NativeContracts.Ruleset

open Json

-- The key of an entry, unescaped, is that of the field.
def Names (entry : Entry) (field : Field) : Prop := Spells entry.key field.key.toList

theorem names_iff {entry : Entry} {key : List Char} (h : Spells entry.key key) (field : Field) :
    Names entry field ↔ field.key.toList = key :=
  ⟨fun hnames => hnames.unique h, fun hkey => by rwa [Names, hkey]⟩

-- An entry that can stand in an object of fields as far as its form goes.
structure Formed (entry : Entry) : Prop where
  spaced : entry.Spaced
  key : ∃ chars, Spells entry.key chars
  value : Value entry.item.value

-- What the entries still to come make of a draft: fields that are new, each given once, and the
-- others as they were.
structure Completes (draft : Draft) (entries : List Entry) (r : Ruleset) : Prop where
  once : entries.Pairwise fun entry later => ∀ field, Names entry field → ¬ Names later field
  fresh : ∀ entry ∈ entries, ∀ field ∈ draft.seen, ¬ Names entry field
  given : ∀ entry ∈ entries, ∀ field, Names entry field → field.Given entry.item.value r
  other : ∀ field, (∀ entry ∈ entries, ¬ Names entry field) → field.Agree r draft.ruleset

theorem completes_nil_iff (draft : Draft) (r : Ruleset) :
    Completes draft [] r ↔ r = draft.ruleset := by
  constructor
  · intro h
    exact Field.eq_of_agree fun field => h.other field (List.forall_mem_nil _)
  · rintro rfl
    exact ⟨.nil, List.forall_mem_nil _, List.forall_mem_nil _, fun field _ => .refl field _⟩

-- What one entry makes of a draft.
inductive Takes (draft : Draft) (key value : List Char) : Draft → Prop
  | field {field : Field} {r : Ruleset} (hkey : field.key.toList = key)
      (hfresh : field ∉ draft.seen) (hgiven : field.Given value r)
      (hothers : ∀ other : Field, other ≠ field → other.Agree r draft.ruleset) :
      Takes draft key value ⟨field :: draft.seen, r⟩
  | unknown (hkey : ∀ field : Field, field.key.toList ≠ key) (hvalue : Value value) :
      Takes draft key value draft

theorem Takes.value {draft after : Draft} {key value : List Char}
    (h : Takes draft key value after) : Value value := by
  cases h with
  | field _ _ hgiven _ => exact hgiven.value
  | unknown _ hvalue => exact hvalue

section Completing

variable {draft : Draft} {entry : Entry} (entries : List Entry) (r : Ruleset)

-- An entry that names no field changes nothing.
theorem completes_cons_of_unnamed (hnone : ∀ field, ¬ Names entry field) :
    Completes draft entries r ↔ Completes draft (entry :: entries) r := by
  constructor
  · intro h
    exact ⟨.cons (fun _ _ field hfield => absurd hfield (hnone field)) h.once,
      List.forall_mem_cons.mpr ⟨fun field _ => hnone field, h.fresh⟩,
      List.forall_mem_cons.mpr ⟨fun field hfield => absurd hfield (hnone field), h.given⟩,
      fun field hfield => h.other field (List.forall_mem_cons.mp hfield).2⟩
  · intro h
    exact ⟨(List.pairwise_cons.mp h.once).2, (List.forall_mem_cons.mp h.fresh).2,
      (List.forall_mem_cons.mp h.given).2,
      fun field hfield => h.other field (List.forall_mem_cons.mpr ⟨hnone field, hfield⟩)⟩

-- An entry that names a field settles this one, and the later entries may not name it again.
theorem completes_cons_of_named {named : Field} {s : Ruleset}
    (hnamed : ∀ field, Names entry field ↔ field = named) (hfresh : named ∉ draft.seen)
    (hgiven : named.Given entry.item.value s)
    (hothers : ∀ other : Field, other ≠ named → other.Agree s draft.ruleset) :
    Completes ⟨named :: draft.seen, s⟩ entries r ↔ Completes draft (entry :: entries) r := by
  have hself : Names entry named := (hnamed named).mpr rfl
  constructor
  · intro h
    have hlater : ∀ later ∈ entries, ¬ Names later named := fun later hmem =>
      h.fresh later hmem named List.mem_cons_self
    refine ⟨.cons (fun later hmem field hfield => ?_) h.once,
      List.forall_mem_cons.mpr ⟨fun field hseen hfield => ?_, fun later hmem field hseen => ?_⟩,
      List.forall_mem_cons.mpr ⟨fun field hfield => ?_, h.given⟩, fun field hfield => ?_⟩
    · rw [(hnamed field).mp hfield]
      exact hlater later hmem
    · rw [(hnamed field).mp hfield] at hseen
      exact hfresh hseen
    · exact h.fresh later hmem field (.tail _ hseen)
    · rw [(hnamed field).mp hfield]
      exact hgiven.of_agree (h.other named hlater)
    · obtain ⟨hentry, hrest⟩ := List.forall_mem_cons.mp hfield
      have hne : field ≠ named := fun heq => hentry ((hnamed field).mpr heq)
      exact (h.other field hrest).trans (hothers field hne)
  · intro h
    have hlater := (List.pairwise_cons.mp h.once).1
    have hvalue := (List.forall_mem_cons.mp h.given).1 named hself
    refine ⟨(List.pairwise_cons.mp h.once).2, fun later hmem field hseen => ?_,
      (List.forall_mem_cons.mp h.given).2, fun field hfield => ?_⟩
    · rcases List.mem_cons.mp hseen with rfl | hseen
      · exact hlater later hmem field hself
      · exact (List.forall_mem_cons.mp h.fresh).2 later hmem field hseen
    · by_cases heq : field = named
      · rw [heq]
        exact hvalue.agree hgiven
      · have hentry : ¬ Names entry field := mt (hnamed field).mp heq
        have hkept := h.other field (List.forall_mem_cons.mpr ⟨hentry, hfield⟩)
        exact hkept.trans (hothers field heq).symm

-- Taking one entry and completing the draft that results is completing the draft with both.
theorem Takes.completes_iff {after : Draft} {key : List Char}
    (htakes : Takes draft key entry.item.value after) (hkey : Spells entry.key key) :
    Completes after entries r ↔ Completes draft (entry :: entries) r := by
  have hnames := names_iff hkey
  cases htakes with
  | unknown hunknown _ =>
      exact completes_cons_of_unnamed entries r fun field h => hunknown field ((hnames field).mp h)
  | @field named s hnamed hfresh hgiven hothers =>
      refine completes_cons_of_named entries r (fun field => ?_) hfresh hgiven hothers
      rw [hnames field]
      exact ⟨fun heq => Field.key_injective (heq.trans hnamed.symm), fun heq => heq ▸ hnamed⟩

end Completing

-- What is to be taken can be read off the result.
theorem Completes.exists_takes {draft : Draft} {entry : Entry} {entries : List Entry} {r : Ruleset}
    {key : List Char} (h : Completes draft (entry :: entries) r) (hkey : Spells entry.key key)
    (hvalue : Value entry.item.value) : ∃ after, Takes draft key entry.item.value after := by
  by_cases hfield : ∃ field : Field, field.key.toList = key
  · obtain ⟨field, hfield⟩ := hfield
    have hself : Names entry field := (names_iff hkey field).mpr hfield
    obtain ⟨s, hagree, hothers⟩ := field.exists_update draft.ruleset r
    have hgiven := (List.forall_mem_cons.mp h.given).1 field hself
    exact ⟨_, .field hfield (fun hseen => (List.forall_mem_cons.mp h.fresh).1 field hseen hself)
      (hgiven.of_agree hagree) hothers⟩
  · exact ⟨draft, .unknown (fun field heq => hfield ⟨field, heq⟩) hvalue⟩

section Reading

theorem readMember_sound {fuel : Nat} {draft after : Draft} {key text rest : List Char}
    (h : readMember fuel draft key text = .ok (after, rest)) :
    ∃ between before value, Blanks between ∧ Blanks before ∧ Takes draft key value after ∧
      text = between ++ ':' :: (before ++ value ++ rest) := by
  unfold readMember at h
  split at h
  · rename_i field hfield
    have hkey := (Field.ofKey?_eq_some_iff key field).mp hfield
    split at h
    · cases h
    · rename_i hfresh
      obtain ⟨⟨_, tail⟩, hcolon, hnext⟩ := bind_eq_ok_iff.mp h
      obtain ⟨⟨r, tail'⟩, hread, hreturn⟩ := bind_eq_ok_iff.mp hnext
      cases hreturn
      obtain ⟨between, hbetween, rfl⟩ := (readColon_eq_ok_iff _ _).mp hcolon
      obtain ⟨before, value, hbefore, hgiven, hothers, rfl⟩ := Field.read_sound hread
      exact ⟨between, before, value, hbetween, hbefore, .field hkey hfresh hgiven hothers, rfl⟩
  · rename_i hnone
    have hkey := (Field.ofKey?_eq_none_iff key).mp hnone
    obtain ⟨⟨_, tail⟩, hcolon, hnext⟩ := bind_eq_ok_iff.mp h
    obtain ⟨between, hbetween, rfl⟩ := (readColon_eq_ok_iff _ _).mp hcolon
    dsimp only at hnext
    split at hnext
    · cases hnext
    · rename_i tail' hskip
      cases hnext
      obtain ⟨before, value, hbefore, hvalue, rfl⟩ := (skipping_sound fuel).1 _ _ hskip
      exact ⟨between, before, value, hbetween, hbefore, .unknown hkey hvalue, rfl⟩

theorem readMember_complete {fuel : Nat} {draft after : Draft}
    {key between before value rest : List Char} (hbetween : Blanks between)
    (hbefore : Blanks before) (htakes : Takes draft key value after) (hrest : Stops rest)
    (hfuel : value.length ≤ fuel) :
    readMember fuel draft key (between ++ ':' :: (before ++ value ++ rest)) =
      .ok (after, rest) := by
  have hcolon := (readColon_eq_ok_iff _ (before ++ value ++ rest)).mpr ⟨between, hbetween, rfl⟩
  unfold readMember
  cases htakes with
  | field hkey hfresh hgiven hothers =>
      have hread := Field.read_complete hbefore hgiven hothers hrest
      simp only [(Field.ofKey?_eq_some_iff _ _).mpr hkey, if_neg hfresh]
      exact bind_eq_ok_iff.mpr ⟨_, hcolon, bind_eq_ok_iff.mpr ⟨_, hread, rfl⟩⟩
  | unknown hkey hvalue =>
      have hskip := hvalue.passedOver before rest fuel hbefore hrest hfuel
      simp only [(Field.ofKey?_eq_none_iff _).mpr hkey]
      refine bind_eq_ok_iff.mpr ⟨_, hcolon, ?_⟩
      simp only [hskip]
      rfl

-- A key and the member that is read behind it are an entry. The blanks that follow belong to it.
theorem exists_entry {fuel : Nat} {draft after : Draft} {text opened chars closed tail : List Char}
    (hopen : skipBlanks text = '"' :: opened) (hstring : readString opened = some (chars, closed))
    (hmember : readMember fuel draft chars closed = .ok (after, tail)) :
    ∃ entry : Entry, Formed entry ∧ Spells entry.key chars ∧
      Takes draft chars entry.item.value after ∧ text = entry.text ++ skipBlanks tail := by
  obtain ⟨before, hbefore, htext⟩ := exists_blanks text
  obtain ⟨key, hkey, rfl⟩ := readString_sound hstring
  obtain ⟨between, before', value, hbetween, hbefore', htakes, rfl⟩ := readMember_sound hmember
  obtain ⟨after', hafter', htail⟩ := exists_blanks tail
  let entry : Entry := ⟨before, key, between, ⟨before', value, after'⟩⟩
  have hformed : Formed entry :=
    ⟨⟨hbefore, hbetween, hbefore', hafter'⟩, ⟨chars, hkey⟩, htakes.value⟩
  refine ⟨entry, hformed, hkey, htakes, ?_⟩
  rw [htext, hopen]
  conv_lhs => rw [htail]
  simp [entry, Entry.text, Item.text]

theorem readMembersWith_sound {fuel : Nat} {draft : Draft} {text rest : List Char} {r : Ruleset}
    (h : readMembersWith fuel draft text = .ok (r, rest)) :
    ∃ entries inner, entries ≠ [] ∧ Sequence (entries.map Entry.text) inner ∧
      (∀ entry ∈ entries, Formed entry) ∧ Completes draft entries r ∧
      text = inner ++ '\x7d' :: rest := by
  induction fuel generalizing draft text with
  | zero => cases h
  | succ fuel ih =>
      simp only [readMembersWith] at h
      split at h
      · rename_i opened hopen
        split at h
        · cases h
        rename_i chars closed hstring
        obtain ⟨⟨after, tail⟩, hmember, hnext⟩ := bind_eq_ok_iff.mp h
        obtain ⟨entry, hformed, hkey, htakes, hwhole⟩ := exists_entry hopen hstring hmember
        dsimp only at hnext
        split at hnext
        · rename_i last hclose
          cases hnext
          refine ⟨[entry], _, List.cons_ne_nil _ _, .one _,
            List.forall_mem_singleton.mpr hformed, ?_, hclose ▸ hwhole⟩
          exact (htakes.completes_iff [] after.ruleset hkey).mp ((completes_nil_iff _ _).mpr rfl)
        · rename_i next hcomma
          obtain ⟨entries, inner, hne, hsequence, hentries, hcompletes, rfl⟩ := ih hnext
          refine ⟨entry :: entries, _, List.cons_ne_nil _ _,
            .cons (mt List.map_eq_nil_iff.mp hne) hsequence,
            List.forall_mem_cons.mpr ⟨hformed, hentries⟩,
            (htakes.completes_iff entries r hkey).mp hcompletes, ?_⟩
          rw [hwhole, hcomma]
          simp
        · cases hnext
      · cases h

-- One entry is read, and what follows decides whether another one is to come.
theorem readMembersWith_entry {draft after : Draft} {entry : Entry} {key : List Char}
    (hspaced : entry.Spaced) (hkey : Spells entry.key key)
    (htakes : Takes draft key entry.item.value after) {c : Char} (hc : c = ',' ∨ c = '\x7d')
    (rest : List Char) {fuel : Nat} (hfuel : entry.text.length ≤ fuel) :
    readMembersWith (fuel + 1) draft (entry.text ++ c :: rest) =
      if c = ',' then readMembersWith fuel after rest else .ok (after.ruleset, rest) := by
  have hmem : c ∈ [',', ']', '\x7d'] := by rcases hc with rfl | rfl <;> decide
  have hblank : isBlank c = false := by rcases hc with rfl | rfl <;> decide
  have hlength : entry.item.value.length ≤ fuel := by
    rw [entry.length_text] at hfuel
    simp only [Item.text, List.length_append] at hfuel
    omega
  have hmember := readMember_complete hspaced.2.1 hspaced.2.2.1 htakes
    (stops_of_blanks hspaced.2.2.2 hmem rest) hlength
  rw [entry.text_append]
  simp only [Item.text, List.append_assoc, readMembersWith,
    skipBlanks_append_cons hspaced.1 (c := '"') (by decide), readString_complete hkey] at hmember ⊢
  rw [hmember]
  simp only [bind, Except.bind, skipBlanks_append_cons hspaced.2.2.2 hblank]
  rcases hc with rfl | rfl <;> rfl

theorem readMembersWith_complete {entries : List Entry} {inner : List Char} {draft : Draft}
    {r : Ruleset} (hne : entries ≠ []) (hsequence : Sequence (entries.map Entry.text) inner)
    (hformed : ∀ entry ∈ entries, Formed entry) (hcompletes : Completes draft entries r)
    (rest : List Char) {fuel : Nat} (hfuel : inner.length < fuel) :
    readMembersWith fuel draft (inner ++ '\x7d' :: rest) = .ok (r, rest) := by
  induction entries generalizing draft inner fuel with
  | nil => exact absurd rfl hne
  | cons entry entries ih =>
      obtain ⟨fuel, rfl⟩ := Nat.exists_eq_succ_of_ne_zero (Nat.ne_zero_of_lt hfuel)
      obtain ⟨hentry, hformed⟩ := List.forall_mem_cons.mp hformed
      obtain ⟨key, hkey⟩ := hentry.key
      obtain ⟨after, htakes⟩ := hcompletes.exists_takes hkey hentry.value
      have hafter := (htakes.completes_iff entries r hkey).mpr hcompletes
      cases entries with
      | nil =>
          cases hsequence
          rw [readMembersWith_entry hentry.spaced hkey htakes (.inr rfl) rest (by omega),
            if_neg (by decide), (completes_nil_iff _ _).mp hafter]
      | cons next entries =>
          cases hsequence with
          | more hsequence =>
              simp only [List.length_append, List.length_cons] at hfuel
              rw [List.append_assoc, List.cons_append]
              rw [readMembersWith_entry hentry.spaced hkey htakes (.inl rfl) _ (by omega),
                if_pos rfl]
              exact ih (List.cons_ne_nil _ _) hsequence hformed hafter (by omega)

end Reading

end NativeContracts.Ruleset
