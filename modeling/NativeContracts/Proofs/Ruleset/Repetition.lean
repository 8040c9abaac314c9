import NativeContracts.Proofs.Ruleset.Decoding
import Mathlib.Data.List.Pairwise

namespace NativeContracts.Ruleset

open Json

section Faults

variable {α β : Type}

-- A reading that fails, if it does, for another reason than a field that is given twice.
def NoDuplicate (x : Except DecodeFault α) : Prop := ∀ name, x ≠ .error (.duplicateField name)

namespace NoDuplicate

theorem ok (a : α) : NoDuplicate (.ok a) := fun _ => nofun

theorem malformed : NoDuplicate (.error .malformed : Except DecodeFault α) := fun _ => nofun

theorem unexpected (text : List Char) (expected : Expectation) :
    NoDuplicate (.error (Json.unexpected text expected) : Except DecodeFault α) := by
  intro name h
  have hfault := Except.error.inj h
  unfold Json.unexpected at hfault
  split at hfault <;> cases hfault

theorem bind {x : Except DecodeFault α} {f : α → Except DecodeFault β} (hx : NoDuplicate x)
    (hf : ∀ a, NoDuplicate (f a)) : NoDuplicate (x >>= f) := by
  intro name h
  rcases bind_eq_error_iff.mp h with hread | ⟨a, -, hnext⟩
  · exact hx name hread
  · exact hf a name hnext

end NoDuplicate

theorem readBoolean_noDuplicate (text : List Char) : NoDuplicate (readBoolean text) := by
  unfold readBoolean
  split
  · split
    · exact .ok _
    · exact .malformed
  · split
    · exact .ok _
    · exact .malformed
  · exact .unexpected _ _

theorem readWord64_noDuplicate (text : List Char) : NoDuplicate (readWord64 text) := by
  unfold readWord64
  split
  · split
    · split
      · exact .malformed
      · split
        · exact .malformed
        · exact .ok _
        · exact fun _ => nofun
        · exact fun _ => nofun
    · exact .unexpected _ _
  · exact .malformed

theorem readColon_noDuplicate (text : List Char) : NoDuplicate (readColon text) := by
  unfold readColon
  split
  · exact .ok _
  · exact .malformed

theorem finish_noDuplicate (text : List Char) : NoDuplicate (finish text) := by
  unfold finish
  split
  · exact .ok _
  · exact .malformed

theorem Field.read_noDuplicate (field : Field) (r : Ruleset) (text : List Char) :
    NoDuplicate (field.read r text) := by
  cases field with
  | chainId => exact (readWord64_noDuplicate text).bind fun _ => .ok _
  | flag fork => exact (readBoolean_noDuplicate text).bind fun _ => .ok _

-- An array names no fields.
theorem readElements_noDuplicate (fields : List Field) (r : Ruleset) (text : List Char) :
    NoDuplicate (readElements fields r text) := by
  induction fields generalizing r text with
  | nil => exact .malformed
  | cons field fields ih =>
      refine (field.read_noDuplicate r text).bind fun (s, rest) => ?_
      dsimp only
      split
      · exact .ok _
      · exact ih s _
      · exact .malformed

-- In a member it is the fault before anything behind the key is looked at.
theorem readMember_eq_duplicateField_iff (fuel : Nat) (draft : Draft) (key text : List Char)
    (name : String) :
    readMember fuel draft key text = .error (.duplicateField name) ↔
      ∃ field ∈ draft.seen, field.key.toList = key ∧ field.key = name := by
  unfold readMember
  constructor
  · intro h
    split at h
    · rename_i field hfield
      split at h
      · rename_i hseen
        cases h
        exact ⟨field, hseen, (Field.ofKey?_eq_some_iff _ _).mp hfield, rfl⟩
      · refine absurd h ((readColon_noDuplicate text).bind (fun ⟨_, rest⟩ => ?_) name)
        exact (field.read_noDuplicate draft.ruleset rest).bind fun _ => .ok _
    · refine absurd h ((readColon_noDuplicate text).bind (fun ⟨_, rest⟩ => ?_) name)
      dsimp only
      split
      · exact .malformed
      · exact .ok _
  · rintro ⟨field, hseen, hkey, rfl⟩
    simp only [(Field.ofKey?_eq_some_iff _ _).mpr hkey, if_pos hseen]

end Faults

section Front

-- Members with a comma behind each of them.
def front (entries : List Entry) : List Char := entries.flatMap fun entry => entry.text ++ [',']

theorem front_cons (entry : Entry) (entries : List Entry) :
    front (entry :: entries) = entry.text ++ ',' :: front entries := by
  simp [front]

-- No two entries name the same field.
theorem eq_of_names {entries : List Entry}
    (honce : entries.Pairwise fun entry later => ∀ field, Names entry field → ¬ Names later field)
    {first second : Entry} (hfirst : first ∈ entries) (hsecond : second ∈ entries) {field : Field}
    (hnames : Names first field) (hnames' : Names second field) : first = second := by
  by_contra hne
  have hsymm : Std.Symm fun entry later : Entry =>
      ∀ field, Names entry field → ¬ Names later field :=
    ⟨fun _ _ hdistinct field hlater hentry => hdistinct field hentry hlater⟩
  exact honce.forall hfirst hsecond hne field hnames hnames'

-- Entries make something of a draft if they name new fields, each of them once, and give each of
-- them a value of its type.
theorem exists_completes_iff (draft : Draft) (entries : List Entry) :
    (∃ r, Completes draft entries r) ↔
      (entries.Pairwise fun entry later => ∀ field, Names entry field → ¬ Names later field) ∧
      (∀ entry ∈ entries, ∀ field ∈ draft.seen, ¬ Names entry field) ∧
      ∀ entry ∈ entries, ∀ field, Names entry field → ∃ r, field.Given entry.item.value r := by
  constructor
  · rintro ⟨r, h⟩
    exact ⟨h.once, h.fresh, fun entry hmem field hnames => ⟨r, h.given entry hmem field hnames⟩⟩
  · rintro ⟨honce, hfresh, htyped⟩
    have hvalue : ∀ field : Field, ∃ s : Ruleset,
        (∀ entry ∈ entries, Names entry field → field.Given entry.item.value s) ∧
          ((∀ entry ∈ entries, ¬ Names entry field) → field.Agree s draft.ruleset) := by
      intro field
      by_cases hnamed : ∃ entry ∈ entries, Names entry field
      · obtain ⟨entry, hmem, hnames⟩ := hnamed
        obtain ⟨s, hgiven⟩ := htyped entry hmem field hnames
        refine ⟨s, fun other hother hnames' => ?_, fun hnone => absurd hnames (hnone entry hmem)⟩
        rwa [eq_of_names honce hother hmem hnames' hnames]
      · simp only [not_exists, not_and] at hnamed
        exact ⟨draft.ruleset, fun entry hmem hnames => absurd hnames (hnamed entry hmem),
          fun _ => .refl field _⟩
    choose s hgiven hother using hvalue
    obtain ⟨r, hagree⟩ := Field.exists_agree s
    exact ⟨r, honce, hfresh,
      fun entry hmem field hnames => (hgiven field entry hmem hnames).of_agree (hagree field),
      fun field hnone => (hagree field).trans (hother field hnone)⟩

-- A draft remembers the fields that were given, and no others.
theorem Takes.mem_seen_iff {draft after : Draft} {entry : Entry} {key : List Char}
    (htakes : Takes draft key entry.item.value after) (hkey : Spells entry.key key)
    (field : Field) : field ∈ after.seen ↔ field ∈ draft.seen ∨ Names entry field := by
  rw [names_iff hkey]
  cases htakes with
  | field hnamed =>
      rw [List.mem_cons, or_comm, ← hnamed]
      exact or_congr_right ⟨fun heq => by rw [heq], Field.key_injective⟩
  | unknown hunknown =>
      exact (or_iff_left (hunknown field)).symm

-- The fields of the draft and of the entries to come are the same after one of these was taken.
theorem Takes.given_iff {draft after : Draft} {entry : Entry} {key : List Char}
    (htakes : Takes draft key entry.item.value after) (hkey : Spells entry.key key)
    (entries : List Entry) (field : Field) :
    (field ∈ after.seen ∨ ∃ later ∈ entries, Names later field) ↔
      field ∈ draft.seen ∨ ∃ later ∈ entry :: entries, Names later field := by
  rw [htakes.mem_seen_iff hkey, or_assoc,
    List.exists_mem_cons_iff (fun later => Names later field)]

-- What is read of the members in front leaves a draft that remembers their fields.
theorem readMembersWith_front {draft : Draft} {entries : List Entry} {r : Ruleset}
    (hformed : ∀ entry ∈ entries, Formed entry) (hcompletes : Completes draft entries r)
    (rest : List Char) (fuel : Nat) (hfuel : (front entries).length < fuel) :
    ∃ left after, readMembersWith fuel draft (front entries ++ rest) =
        readMembersWith (left + 1) after rest ∧
      ∀ field, field ∈ after.seen ↔ field ∈ draft.seen ∨ ∃ entry ∈ entries, Names entry field := by
  induction entries generalizing draft fuel with
  | nil =>
      obtain ⟨left, rfl⟩ := Nat.exists_eq_succ_of_ne_zero (Nat.ne_zero_of_lt hfuel)
      exact ⟨left, draft, rfl, by simp⟩
  | cons entry entries ih =>
      obtain ⟨fuel, rfl⟩ := Nat.exists_eq_succ_of_ne_zero (Nat.ne_zero_of_lt hfuel)
      obtain ⟨hentry, hformed⟩ := List.forall_mem_cons.mp hformed
      obtain ⟨key, hkey⟩ := hentry.key
      obtain ⟨next, htakes⟩ := hcompletes.exists_takes hkey hentry.value
      have hnext := (htakes.completes_iff entries r hkey).mpr hcompletes
      rw [front_cons, List.length_append, List.length_cons] at hfuel
      obtain ⟨left, after, hread, hseen⟩ := ih hformed hnext fuel (by omega)
      refine ⟨left, after, ?_, fun field => ?_⟩
      · rw [front_cons, List.append_assoc, List.cons_append,
          readMembersWith_entry hentry.spaced hkey htakes (.inl rfl) _ (by omega), if_pos rfl,
          hread]
      · rw [hseen, htakes.given_iff hkey]

theorem readMembers_front {entries : List Entry} {r : Ruleset}
    (hformed : ∀ entry ∈ entries, Formed entry) (hcompletes : Completes ⟨[], empty⟩ entries r)
    (rest : List Char) :
    ∃ left after, readMembers (front entries ++ rest) = readMembersWith (left + 1) after rest ∧
      ∀ field, field ∈ after.seen ↔ ∃ entry ∈ entries, Names entry field := by
  have hfuel : (front entries).length < fuelFor (front entries ++ rest) := by
    simp only [fuelFor, List.length_append]
    omega
  obtain ⟨left, after, hread, hseen⟩ := readMembersWith_front hformed hcompletes rest _ hfuel
  refine ⟨left, after, hread, fun field => ?_⟩
  rw [hseen, or_iff_right List.not_mem_nil]

-- A member in front tells an object from an empty one.
theorem readRuleset_front {before : List Char} {entries : List Entry} (hbefore : Blanks before)
    (hne : entries ≠ []) (hformed : ∀ entry ∈ entries, Formed entry) (rest : List Char) :
    readRuleset (before ++ '\x7b' :: (front entries ++ rest)) =
      readMembers (front entries ++ rest) := by
  obtain ⟨first, entries, rfl⟩ := List.exists_cons_of_ne_nil hne
  have hspaced := (hformed first List.mem_cons_self).spaced
  obtain ⟨tail, hcons⟩ := first.skipBlanks_text_append hspaced (',' :: front entries ++ rest)
  rw [front_cons, List.append_assoc]
  simp only [readRuleset, skipBlanks_append_cons hbefore (c := '\x7b') (by decide), hcons]
  rfl

end Front

section Repeating

-- A key that names a field of the draft ends the reading, whatever comes behind it.
theorem readMembersWith_of_mem_seen {draft : Draft} {field : Field} (hseen : field ∈ draft.seen)
    {blanks key : List Char} (hblanks : Blanks blanks) (hkey : Spells key field.key.toList)
    (rest : List Char) (fuel : Nat) :
    readMembersWith (fuel + 1) draft (blanks ++ '"' :: (key ++ '"' :: rest)) =
      .error (.duplicateField field.key) := by
  have hmember : readMember fuel draft field.key.toList rest =
      .error (.duplicateField field.key) :=
    (readMember_eq_duplicateField_iff _ _ _ _ _).mpr ⟨field, hseen, rfl, rfl⟩
  simp only [readMembersWith, skipBlanks_append_cons hblanks (c := '"') (by decide),
    readString_complete hkey]
  rw [hmember]
  rfl

-- The fault of a repeated field comes from such a key and from nothing else.
theorem exists_front_of_duplicateField {fuel : Nat} {draft : Draft} {text : List Char}
    {name : String} (h : readMembersWith fuel draft text = .error (.duplicateField name)) :
    ∃ field entries r blanks key rest, field.key = name ∧ (∀ entry ∈ entries, Formed entry) ∧
      Completes draft entries r ∧ (field ∈ draft.seen ∨ ∃ entry ∈ entries, Names entry field) ∧
      Blanks blanks ∧ Spells key field.key.toList ∧
      text = front entries ++ (blanks ++ '"' :: (key ++ '"' :: rest)) := by
  induction fuel generalizing draft text with
  | zero => cases h
  | succ fuel ih =>
      simp only [readMembersWith] at h
      split at h
      · rename_i opened hopen
        split at h
        · cases h
        rename_i chars closed hstring
        rcases bind_eq_error_iff.mp h with hmember | ⟨⟨after, tail⟩, hmember, hnext⟩
        · obtain ⟨field, hseen, rfl, hname⟩ :=
            (readMember_eq_duplicateField_iff _ _ _ _ _).mp hmember
          obtain ⟨blanks, hblanks, htext⟩ := exists_blanks text
          obtain ⟨key, hkey, rfl⟩ := readString_sound hstring
          rw [hopen] at htext
          exact ⟨field, [], draft.ruleset, blanks, key, closed, hname, List.forall_mem_nil _,
            (completes_nil_iff _ _).mpr rfl, .inl hseen, hblanks, hkey, htext⟩
        · obtain ⟨entry, hformed, hkey, htakes, hwhole⟩ := exists_entry hopen hstring hmember
          dsimp only at hnext
          split at hnext
          · cases hnext
          · rename_i next hcomma
            obtain ⟨field, entries, r, blanks, key, rest, hname, hentries, hcompletes, hgiven,
              hblanks, hspells, rfl⟩ := ih hnext
            refine ⟨field, entry :: entries, r, blanks, key, rest, hname,
              List.forall_mem_cons.mpr ⟨hformed, hentries⟩,
              (htakes.completes_iff entries r hkey).mp hcompletes,
              (htakes.given_iff hkey entries field).mp hgiven, hblanks, hspells, ?_⟩
            rw [hwhole, hcomma, front_cons, List.append_assoc, List.cons_append]
          · cases hnext
      · cases h

-- A text that gives a field for the second time: up to there it is an object of fields, each given
-- once by a value of its type, and of other entries. Both keys may be written in any way, and
-- nothing is asked of what comes behind the second one.
inductive Repeats (field : Field) : List Char → Prop
  | mk {before blanks key : List Char} {entries : List Entry} (hbefore : Blanks before)
      (hformed : ∀ entry ∈ entries, Formed entry)
      (honce : entries.Pairwise fun entry later => ∀ field, Names entry field → ¬ Names later field)
      (htyped : ∀ entry ∈ entries, ∀ field, Names entry field →
        ∃ r, field.Given entry.item.value r)
      (hgiven : ∃ entry ∈ entries, Names entry field) (hblanks : Blanks blanks)
      (hkey : Spells key field.key.toList) (continuation : List Char) :
      Repeats field
        (before ++ '\x7b' :: (front entries ++ (blanks ++ '"' :: (key ++ '"' :: continuation))))

theorem decode_of_repeats {field : Field} {text : List Char} (h : Repeats field text) :
    decode text = .error (.duplicateField field.key) := by
  cases h with
  | mk hbefore hformed honce htyped hgiven hblanks hkey continuation =>
      obtain ⟨r, hcompletes⟩ := (exists_completes_iff ⟨[], empty⟩ _).mpr
        ⟨honce, fun _ _ => List.forall_mem_nil _, htyped⟩
      obtain ⟨left, after, hread, hseen⟩ := readMembers_front hformed hcompletes _
      obtain ⟨entry, hmem, -⟩ := id hgiven
      refine bind_eq_error_iff.mpr (.inl ?_)
      rw [readRuleset_front hbefore (List.ne_nil_of_mem hmem) hformed, hread]
      exact readMembersWith_of_mem_seen ((hseen field).mpr hgiven) hblanks hkey continuation left

theorem repeats_of_decode {text : List Char} {name : String}
    (h : decode text = .error (.duplicateField name)) :
    ∃ field : Field, field.key = name ∧ Repeats field text := by
  rcases bind_eq_error_iff.mp h with hread | ⟨⟨r, rest⟩, -, hnext⟩
  · obtain ⟨before, hbefore, htext⟩ := exists_blanks text
    unfold readRuleset at hread
    split at hread
    · split at hread
      · cases hread
      · exact absurd hread (readElements_noDuplicate _ _ _ _)
    · rename_i tail hopen
      split at hread
      · cases hread
      · obtain ⟨field, entries, r, blanks, key, rest, hname, hformed, hcompletes, hgiven, hblanks,
          hkey, rfl⟩ := exists_front_of_duplicateField hread
        obtain ⟨honce, -, htyped⟩ := (exists_completes_iff _ _).mp ⟨r, hcompletes⟩
        rw [htext, hopen]
        exact ⟨field, hname, .mk hbefore hformed honce htyped
          (hgiven.resolve_left List.not_mem_nil) hblanks hkey rest⟩
    · exact absurd hread (NoDuplicate.unexpected _ _ _)
  · rcases bind_eq_error_iff.mp hnext with hfinish | ⟨-, -, hreturn⟩
    · exact absurd hfinish (finish_noDuplicate rest name)
    · cases hreturn

end Repeating

end NativeContracts.Ruleset

namespace NativeContracts

open Json Ruleset

-- A field that an object gives twice is its fault at the second key, in whichever ways the two keys
-- and their values are written, and with anything behind it. No other text has this fault.
theorem repeated_field_is_refused_at_its_key (text : List Char) (name : String) :
    (Ruleset.decode text = .error (.duplicateField name) ↔
      ∃ field : Field, field.key = name ∧ Repeats field text) ∧
      (DecodeFault.duplicateField name).message? = some ("duplicate field `" ++ name ++ "`") := by
  refine ⟨⟨repeats_of_decode, ?_⟩, rfl⟩
  rintro ⟨field, rfl, hrepeats⟩
  exact decode_of_repeats hrepeats

-- The value is the default both times, a nested key of the same name does not count, and the text
-- breaks off behind the second key, which has an escape.
example :
    let text := "\x7b\"isBerlin\":false, \"x\":[\x7b\"isBerlin\":1\x7d],\"isBerl\\u0069n\"".toList
    (match Ruleset.decode text with
      | .error fault => fault.message?
      | .ok _ => none) = some "duplicate field `isBerlin`" := by
  decide +kernel

end NativeContracts
