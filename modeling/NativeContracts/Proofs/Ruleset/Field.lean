import NativeContracts.Ruleset.Decoding
import NativeContracts.Proofs.Except
import NativeContracts.Proofs.Json.Reader
import Mathlib.Data.List.Nodup

namespace NativeContracts.Ruleset

open Json

namespace Field

theorem mem_all (field : Field) : field ∈ all := by
  cases field with
  | chainId => exact List.mem_cons_self
  | flag fork => exact .tail _ (List.mem_map_of_mem (Fork.mem_chain fork))

theorem nodup_all : all.Nodup := by decide

theorem nodup_keys : (all.map fun field => field.key.toList).Nodup := by decide +kernel

theorem key_injective {field other : Field} (h : field.key.toList = other.key.toList) :
    field = other :=
  List.inj_on_of_nodup_map nodup_keys (mem_all field) (mem_all other) h

theorem ofKey?_eq_some_iff (key : List Char) (field : Field) :
    ofKey? key = some field ↔ field.key.toList = key := by
  constructor
  · intro h
    simpa using List.find?_some h
  · rintro rfl
    cases hfind : ofKey? field.key.toList with
    | none =>
        have hne := List.find?_eq_none.mp hfind field (mem_all field)
        exact absurd (decide_eq_true rfl) hne
    | some other =>
        have hother : other.key.toList = field.key.toList := by simpa using List.find?_some hfind
        rw [key_injective hother]

theorem ofKey?_eq_none_iff (key : List Char) :
    ofKey? key = none ↔ ∀ field : Field, field.key.toList ≠ key := by
  simp [ofKey?, mem_all]

-- The text writes the value that the rule set has at the field.
def Given (field : Field) (text : List Char) (r : Ruleset) : Prop :=
  match field with
  | chainId => Whole text ∧ Nat.ofDigitChars 10 text 0 = r.chainId.toNat
  | flag fork => text = booleanText (r.active fork)

-- Two rule sets have the same value at the field.
def Agree (field : Field) (r s : Ruleset) : Prop :=
  match field with
  | chainId => r.chainId = s.chainId
  | flag fork => r.active fork = s.active fork

@[refl] theorem Agree.refl (field : Field) (r : Ruleset) : field.Agree r r := by
  cases field <;> rfl

variable {field : Field} {r s t : Ruleset}

theorem Agree.symm (h : field.Agree r s) : field.Agree s r := by
  cases field <;> exact Eq.symm h

theorem Agree.trans (hrs : field.Agree r s) (hst : field.Agree s t) : field.Agree r t := by
  cases field <;> exact Eq.trans hrs hst

theorem eq_of_agree (h : ∀ field : Field, field.Agree r s) : r = s :=
  Ruleset.ext (h chainId) fun fork => h (flag fork)

theorem Given.of_agree {text : List Char} (h : field.Given text r) (hagree : field.Agree s r) :
    field.Given text s := by
  cases field with
  | chainId => exact ⟨h.1, h.2.trans (congrArg UInt64.toNat hagree.symm)⟩
  | flag fork => exact h.trans (congrArg booleanText hagree.symm)

theorem booleanText_injective {a b : Bool} (h : booleanText a = booleanText b) : a = b := by
  cases a <;> cases b <;> simp_all [booleanText]

theorem Given.agree {text : List Char} (hr : field.Given text r) (hs : field.Given text s) :
    field.Agree r s := by
  cases field with
  | chainId => exact UInt64.toNat_inj.mp (hr.2.symm.trans hs.2)
  | flag fork => exact booleanText_injective (hr.symm.trans hs)

theorem Given.value {text : List Char} (h : field.Given text r) : Value text := by
  cases field with
  | chainId => exact .number ((written_whole_iff text text).mpr ⟨h.1, rfl⟩)
  | flag fork =>
      rw [show text = booleanText (r.active fork) from h]
      cases r.active fork <;> exact .word (by decide)

-- One rule set can agree with another one at each field.
theorem exists_agree (s : Field → Ruleset) :
    ∃ u : Ruleset, ∀ field : Field, field.Agree u (s field) := by
  refine ⟨⟨(s chainId).chainId, fun fork => (s (flag fork)).active fork⟩, fun field => ?_⟩
  cases field <;> rfl

-- One field can be taken over from another rule set.
theorem exists_update (field : Field) (r s : Ruleset) :
    ∃ u : Ruleset, field.Agree u s ∧ ∀ other : Field, other ≠ field → other.Agree u r := by
  obtain ⟨u, hagree⟩ := exists_agree fun other => if other = field then s else r
  refine ⟨u, ?_, fun other hother => ?_⟩
  · simpa using hagree field
  · simpa [hother] using hagree other

theorem read_sound {text rest : List Char} (h : field.read r text = .ok (s, rest)) :
    ∃ blanks value, Blanks blanks ∧ field.Given value s ∧
      (∀ other : Field, other ≠ field → other.Agree s r) ∧ text = blanks ++ value ++ rest := by
  cases field with
  | chainId =>
      obtain ⟨⟨n, after⟩, hread, hreturn⟩ := bind_eq_ok_iff.mp h
      cases hreturn
      obtain ⟨blanks, number, hblanks, hwhole, hvalue, htext⟩ := readWord64_sound hread
      refine ⟨blanks, number, hblanks, ⟨hwhole, hvalue⟩, fun other hother => ?_, htext⟩
      cases other with
      | chainId => exact absurd rfl hother
      | flag fork => rfl
  | flag fork =>
      obtain ⟨⟨value, after⟩, hread, hreturn⟩ := bind_eq_ok_iff.mp h
      cases hreturn
      obtain ⟨blanks, hblanks, htext⟩ := (readBoolean_eq_ok_iff _ _ _).mp hread
      refine ⟨blanks, booleanText value, hblanks, congrArg booleanText (if_pos rfl).symm,
        fun other hother => ?_, htext⟩
      cases other with
      | chainId => rfl
      | flag fork' => exact if_neg fun heq => hother (congrArg flag heq)

theorem read_complete {blanks value rest : List Char} (hblanks : Blanks blanks)
    (hgiven : field.Given value s) (hothers : ∀ other : Field, other ≠ field → other.Agree s r)
    (hrest : Stops rest) : field.read r (blanks ++ value ++ rest) = .ok (s, rest) := by
  cases field with
  | chainId =>
      have hs : r.withChainId s.chainId = s :=
        Ruleset.ext rfl fun fork => (hothers (flag fork) (by simp)).symm
      refine bind_eq_ok_iff.mpr ⟨(s.chainId, rest), ?_, congrArg (fun u => Except.ok (u, rest)) hs⟩
      exact readWord64_complete hblanks hgiven.1 hgiven.2 hrest
  | flag fork =>
      have hs : r.setActive fork (s.active fork) = s := by
        refine Ruleset.ext (hothers chainId (by simp)).symm fun fork' => ?_
        by_cases heq : fork' = fork
        · rw [heq]
          exact if_pos rfl
        · exact (if_neg heq).trans (hothers (flag fork') fun h => heq (flag.inj h)).symm
      refine bind_eq_ok_iff.mpr ⟨(s.active fork, rest), ?_,
        congrArg (fun u => Except.ok (u, rest)) hs⟩
      rw [show value = booleanText (s.active fork) from hgiven]
      exact (readBoolean_eq_ok_iff _ _ _).mpr ⟨blanks, hblanks, rfl⟩

end Field

end NativeContracts.Ruleset
