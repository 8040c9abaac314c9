import NativeContracts.Ruleset.Encoding
import NativeContracts.Proofs.Ruleset.Decoding

namespace NativeContracts.Ruleset

open Json

section Text

theorem head?_toDigits {n : Nat} (hn : 0 < n) : (Nat.toDigits 10 n).head? ≠ some '0' := by
  induction n using Nat.strongRecOn with
  | ind n ih =>
      rcases Nat.lt_or_ge n 10 with hsmall | hlarge
      · rw [Nat.toDigits_of_lt_base hsmall]
        simpa using Nat.ne_of_gt hn
      · rw [Nat.toDigits_of_base_le (by decide) hlarge,
          List.head?_append_of_ne_nil _ Nat.toDigits_ne_nil]
        exact ih (n / 10) (by omega) (by omega)

-- Only zero itself is written with a zero in front.
theorem whole_toDigits (n : Nat) : Whole (Nat.toDigits 10 n) := by
  have hdigits : Digits (Nat.toDigits 10 n) :=
    ⟨Nat.toDigits_ne_nil, fun c hc => Nat.isDigit_of_mem_toDigits (by decide) (by decide) hc⟩
  refine ⟨hdigits, fun hhead => ?_⟩
  rcases Nat.eq_zero_or_pos n with rfl | hn
  · rfl
  · exact absurd hhead (head?_toDigits hn)

theorem spells_self {text : List Char} (h : ∀ c ∈ text, Plain c) : Spells text text := by
  induction text with
  | nil => exact .nil
  | cons c text ih =>
      obtain ⟨hc, htext⟩ := List.forall_mem_cons.mp h
      exact .plain hc (ih htext)

end Text

namespace Field

-- No key needs an escape.
theorem spells_key (field : Field) : Spells field.key.toList field.key.toList := by
  have hplain : ∀ field ∈ all, field.key.toList.all fun c => Plain c := by decide +kernel
  exact spells_self (List.all_iff_forall_prop.mp (hplain field (mem_all field)))

theorem given_valueText (field : Field) (r : Ruleset) : field.Given (field.valueText r) r := by
  cases field with
  | chainId => exact ⟨whole_toDigits _, Nat.ofDigitChars_ten_toDigits⟩
  | flag fork => rfl

-- The entry that is written for a field.
def entry (field : Field) (r : Ruleset) : Entry :=
  ⟨[], field.key.toList, [], ⟨[], field.valueText r, []⟩⟩

variable (field other : Field) (r : Ruleset)

theorem text_entry : (field.entry r).text = field.memberText r := by
  simp [entry, Entry.text, Item.text, memberText]

theorem formed_entry : Formed (field.entry r) :=
  ⟨⟨.nil, .nil, .nil, .nil⟩, ⟨_, field.spells_key⟩, (field.given_valueText r).value⟩

theorem names_entry_iff : Names (field.entry r) other ↔ other = field := by
  rw [names_iff field.spells_key]
  exact ⟨key_injective, fun heq => by rw [heq]⟩

end Field

theorem sequence_membersText (r : Ruleset) (fields : List Field) :
    Sequence ((fields.map fun field => field.entry r).map Entry.text) (membersText r fields) := by
  induction fields with
  | nil => exact .none .nil
  | cons field fields ih =>
      cases fields with
      | nil =>
          rw [membersText, ← field.text_entry r]
          exact .one _
      | cons next fields =>
          have htext : membersText r (field :: next :: fields) =
              field.memberText r ++ ',' :: membersText r (next :: fields) := rfl
          rw [htext, ← field.text_entry r]
          exact .more ih

-- Every field is written once, so that nothing is left to the empty rule set.
theorem denotes_encode (r : Ruleset) : Denotes r.encode r := by
  have hentry : ∀ entry ∈ Field.all.map fun field => field.entry r,
      ∃ field : Field, entry = field.entry r := by
    intro entry hmem
    obtain ⟨field, -, rfl⟩ := List.mem_map.mp hmem
    exact ⟨field, rfl⟩
  refine .object (sequence_membersText r Field.all) (fun entry hmem => ?_) ?_
    (fun entry hmem field hfield => ?_) fun field hnone => ?_
  · obtain ⟨field, rfl⟩ := hentry entry hmem
    exact field.formed_entry r
  · refine List.pairwise_map.mpr (Field.nodup_all.imp ?_)
    intro first second hne field hfirst hsecond
    rw [Field.names_entry_iff] at hfirst hsecond
    exact hne (hfirst.symm.trans hsecond)
  · obtain ⟨written, rfl⟩ := hentry entry hmem
    rw [(written.names_entry_iff field r).mp hfield]
    exact written.given_valueText r
  · have hnames := (field.names_entry_iff field r).mpr rfl
    exact absurd hnames (hnone _ (List.mem_map_of_mem field.mem_all))

theorem decode_encode (r : Ruleset) : decode r.encode = .ok r := by
  have hdecode := decode_complete .nil r.denotes_encode .nil
  rwa [List.nil_append, List.append_nil] at hdecode

end NativeContracts.Ruleset

namespace NativeContracts

open Ruleset

-- What is written is read back, so no two rule sets are written alike, and what was read from any
-- text is kept when it is written anew.
theorem ruleset_text_round_trip :
    (∀ r : Ruleset, Ruleset.decode r.encode = .ok r) ∧ Function.Injective Ruleset.encode ∧
      ∀ (text : List Char) (r : Ruleset), Ruleset.decode text = .ok r →
        Ruleset.decode r.encode = .ok r := by
  refine ⟨decode_encode, fun r s heq => ?_, fun _ r _ => decode_encode r⟩
  have hdecode := decode_encode r
  rw [heq, decode_encode s] at hdecode
  exact (Except.ok.inj hdecode).symm

-- The keys stand out of order here, one of them with an escape, and the chain id is the largest.
theorem escaped_text_rewritten :
    let text := "\x7b\"isPragu\\u0065\": true, \"chainId\": 18446744073709551615\x7d".toList
    let r := (empty.setActive .prague true).withChainId 18446744073709551615
    Ruleset.decode text = .ok r ∧ Ruleset.decode r.encode = .ok r := by
  intro text r
  have hread : Ruleset.decode text = .ok r := by
    have hread : (Ruleset.decode text).toOption = some r := by decide +kernel
    cases hresult : Ruleset.decode text with
    | error fault => simp [hresult, Except.toOption] at hread
    | ok s => simpa [hresult, Except.toOption] using hread
  exact ⟨hread, ruleset_text_round_trip.2.2 text r hread⟩

end NativeContracts
