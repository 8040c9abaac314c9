import NativeContracts.Proofs.Ruleset.Array
import NativeContracts.Proofs.Ruleset.Object

namespace NativeContracts.Ruleset

open Json

-- What a value says about a rule set. In an object each field is given once at most, and entries
-- that name no field say nothing; an array gives the first fields in their order. What is not
-- given is as in the empty rule set.
inductive Denotes : List Char → Ruleset → Prop
  | object {entries : List Entry} {text : List Char} {r : Ruleset}
      (hsequence : Sequence (entries.map Entry.text) text)
      (hformed : ∀ entry ∈ entries, Formed entry)
      (honce : entries.Pairwise fun entry later => ∀ field, Names entry field → ¬ Names later field)
      (hgiven : ∀ entry ∈ entries, ∀ field, Names entry field → field.Given entry.item.value r)
      (hother : ∀ field, (∀ entry ∈ entries, ¬ Names entry field) → field.Agree r empty) :
      Denotes ('\x7b' :: text ++ ['\x7d']) r
  | array {items : List Item} {text : List Char} {r : Ruleset}
      (hsequence : Sequence (items.map Item.text) text) (hspaced : ∀ item ∈ items, item.Spaced)
      (hfills : Fills Field.all empty items r) : Denotes ('[' :: text ++ [']']) r

theorem completes_start_iff (entries : List Entry) (r : Ruleset) :
    Completes ⟨[], empty⟩ entries r ↔
      (entries.Pairwise fun entry later => ∀ field, Names entry field → ¬ Names later field) ∧
      (∀ entry ∈ entries, ∀ field, Names entry field → field.Given entry.item.value r) ∧
      ∀ field, (∀ entry ∈ entries, ¬ Names entry field) → field.Agree r empty := by
  constructor
  · intro h
    exact ⟨h.once, h.given, h.other⟩
  · rintro ⟨honce, hgiven, hother⟩
    exact ⟨honce, fun _ _ => List.forall_mem_nil _, hgiven, hother⟩

theorem Fills.value {fields : List Field} {start r : Ruleset} {items : List Item}
    (h : Fills fields start items r) {item : Item} (hitem : item ∈ items) : Value item.value := by
  rw [← List.map_fst_zip h.short] at hitem
  obtain ⟨⟨first, field⟩, hpair, rfl⟩ := List.mem_map.mp hitem
  exact (h.given _ hpair).value

theorem Denotes.value {value : List Char} {r : Ruleset} (h : Denotes value r) : Value value := by
  cases h with
  | object hsequence hformed _ _ _ =>
      refine .object hsequence (fun entry hmem => (hformed entry hmem).spaced)
        (fun entry hmem => ?_) fun entry hmem => (hformed entry hmem).value
      obtain ⟨chars, hkey⟩ := (hformed entry hmem).key
      exact hkey.body
  | array hsequence hspaced hfills =>
      exact .array hsequence hspaced fun item hmem => hfills.value hmem

theorem denotes_empty_object {blanks : List Char} (h : Blanks blanks) :
    Denotes ('\x7b' :: blanks ++ ['\x7d']) empty := by
  refine @Denotes.object [] _ _ (.none h) ?_ .nil ?_ fun field _ => .refl field _
  · simp
  · simp

theorem denotes_empty_array {blanks : List Char} (h : Blanks blanks) :
    Denotes ('[' :: blanks ++ [']']) empty :=
  @Denotes.array [] _ _ (.none h) (List.forall_mem_nil _) ((fills_nil_iff _ _ _).mpr rfl)

theorem readRuleset_sound {text rest : List Char} {r : Ruleset}
    (h : readRuleset text = .ok (r, rest)) :
    ∃ before value, Blanks before ∧ Denotes value r ∧ text = before ++ value ++ rest := by
  obtain ⟨before, hbefore, htext⟩ := exists_blanks text
  suffices hvalue : ∃ value, Denotes value r ∧ skipBlanks text = value ++ rest by
    obtain ⟨value, hdenotes, hskip⟩ := hvalue
    exact ⟨before, value, hbefore, hdenotes, by rw [List.append_assoc, ← hskip, ← htext]⟩
  unfold readRuleset at h
  split at h
  · rename_i tail hopen
    obtain ⟨blanks, hblanks, htail⟩ := exists_blanks tail
    split at h
    · rename_i last hclose
      cases h
      refine ⟨_, denotes_empty_array hblanks, ?_⟩
      rw [hopen, htail, hclose]
      simp
    · obtain ⟨items, inner, -, hsequence, hspaced, hfills, rfl⟩ :=
        readElements_sound Field.nodup_all h
      exact ⟨_, .array hsequence hspaced hfills, by rw [hopen]; simp⟩
  · rename_i tail hopen
    obtain ⟨blanks, hblanks, htail⟩ := exists_blanks tail
    split at h
    · rename_i last hclose
      cases h
      refine ⟨_, denotes_empty_object hblanks, ?_⟩
      rw [hopen, htail, hclose]
      simp
    · obtain ⟨entries, inner, -, hsequence, hformed, hcompletes, rfl⟩ := readMembersWith_sound h
      obtain ⟨honce, hgiven, hother⟩ := (completes_start_iff _ _).mp hcompletes
      exact ⟨_, .object hsequence hformed honce hgiven hother, by rw [hopen]; simp⟩
  · cases h

theorem readRuleset_complete {before value : List Char} {r : Ruleset} (hbefore : Blanks before)
    (h : Denotes value r) (rest : List Char) :
    readRuleset (before ++ value ++ rest) = .ok (r, rest) := by
  cases h with
  | @object entries text _ hsequence hformed honce hgiven hother =>
      have hcompletes := (completes_start_iff _ _).mpr ⟨honce, hgiven, hother⟩
      have htext : before ++ ('\x7b' :: text ++ ['\x7d']) ++ rest =
          before ++ '\x7b' :: (text ++ '\x7d' :: rest) := by simp
      rw [htext, readRuleset, skipBlanks_append_cons hbefore (by decide)]
      by_cases hne : entries = []
      · subst hne
        cases hsequence with
        | none hblanks =>
            rw [(completes_nil_iff _ _).mp hcompletes]
            simp [skipBlanks_append_cons hblanks (c := '\x7d') (by decide)]
      · obtain ⟨tail, hcons⟩ := skipBlanks_entries hne hsequence
          (fun entry hmem => (hformed entry hmem).spaced) ('\x7d' :: rest)
        simp only [hcons]
        refine readMembersWith_complete hne hsequence hformed hcompletes rest ?_
        simp only [fuelFor, List.length_append]
        omega
  | @array items text _ hsequence hspaced hfills =>
      have htext : before ++ ('[' :: text ++ [']']) ++ rest =
          before ++ '[' :: (text ++ ']' :: rest) := by simp
      rw [htext, readRuleset, skipBlanks_append_cons hbefore (by decide)]
      by_cases hne : items = []
      · subst hne
        cases hsequence with
        | none hblanks =>
            rw [(fills_nil_iff _ _ _).mp hfills]
            simp [skipBlanks_append_cons hblanks (c := ']') (by decide)]
      · obtain ⟨c, tail, hcons, hc⟩ := skipBlanks_items hne hsequence hspaced
          (fun item hmem => hfills.value hmem) (']' :: rest)
        simp only [hcons]
        split
        · rename_i heq
          cases heq
          exact absurd rfl hc
        · exact readElements_complete hne hsequence hspaced Field.nodup_all hfills rest

theorem decode_sound {text : List Char} {r : Ruleset} (h : decode text = .ok r) :
    ∃ before value after, Blanks before ∧ Denotes value r ∧ Blanks after ∧
      text = before ++ value ++ after := by
  obtain ⟨⟨s, rest⟩, hread, hnext⟩ := bind_eq_ok_iff.mp h
  obtain ⟨⟨⟩, hfinish, hreturn⟩ := bind_eq_ok_iff.mp hnext
  cases hreturn
  obtain ⟨before, value, hbefore, hdenotes, rfl⟩ := readRuleset_sound hread
  exact ⟨before, value, rest, hbefore, hdenotes, (finish_eq_ok_iff rest).mp hfinish, rfl⟩

theorem decode_complete {before value after : List Char} {r : Ruleset} (hbefore : Blanks before)
    (hdenotes : Denotes value r) (hafter : Blanks after) :
    decode (before ++ value ++ after) = .ok r := by
  refine bind_eq_ok_iff.mpr ⟨_, readRuleset_complete hbefore hdenotes after, ?_⟩
  exact bind_eq_ok_iff.mpr ⟨_, (finish_eq_ok_iff after).mpr hafter, rfl⟩

end NativeContracts.Ruleset

namespace NativeContracts

open Json Ruleset

-- The texts of one JSON value with blanks around it, and of these the ones that say something
-- about a rule set, are exactly those that are read, and as what they say.
theorem decoding_accepts_its_format :
    Field.all.map Field.key =
        ["chainId", "isHomestead", "isEIP150", "isEIP155", "isEIP158", "isByzantium",
          "isConstantinople", "isPetersburg", "isIstanbul", "isBerlin", "isLondon", "isMerge",
          "isShanghai", "isCancun", "isPrague"] ∧
      ∀ (text : List Char) (r : Ruleset), Ruleset.decode text = .ok r ↔
        ∃ before value after, text = before ++ value ++ after ∧ Blanks before ∧ Blanks after ∧
          Value value ∧ Denotes value r := by
  refine ⟨by decide +kernel, fun text r => ⟨fun h => ?_, ?_⟩⟩
  · obtain ⟨before, value, after, hbefore, hdenotes, hafter, htext⟩ := decode_sound h
    exact ⟨before, value, after, htext, hbefore, hafter, hdenotes.value, hdenotes⟩
  · rintro ⟨before, value, after, rfl, hbefore, hafter, -, hdenotes⟩
    exact decode_complete hbefore hdenotes hafter

end NativeContracts
