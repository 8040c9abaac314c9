import NativeContracts.Registry
import Mathlib.Data.Finset.Max

namespace NativeContracts

namespace Revision

theorem le_refl (a : Revision) : a ≤ a := Nat.le_refl a.rank

theorem le_trans {a b c : Revision} (hab : a ≤ b) (hbc : b ≤ c) : a ≤ c := Nat.le_trans hab hbc

theorem le_antisymm {a b : Revision} (hab : a ≤ b) (hba : b ≤ a) : a = b := by
  have hrank : a.rank = b.rank := Nat.le_antisymm hab hba
  revert hrank
  cases a <;> cases b <;> decide

end Revision

namespace Contract

theorem forall_of_all {p : Contract → Prop} (h : ∀ c ∈ all, p c) (c : Contract) : p c :=
  h c (mem_all c)

theorem forall_pair_of_all {p : Contract → Contract → Prop} (h : ∀ c ∈ all, ∀ d ∈ all, p c d)
    (c d : Contract) : p c d :=
  h c (mem_all c) d (mem_all d)

-- The address and the revision tell all contracts apart.
theorem eq_of_address_of_since {c d : Contract} (haddress : c.address = d.address)
    (hsince : c.since = d.since) : c = d := by
  have hall : ∀ c d : Contract, c.address = d.address → c.since = d.since → c = d :=
    forall_pair_of_all (by decide +kernel)
  exact hall c d haddress hsince

-- Of the contracts whose revisions have arrived, `c` is the newest at the address.
structure Newest (arrived : Revision → Prop) (a : Address) (c : Contract) : Prop where
  stands : c.address = a
  came : arrived c.since
  last : ∀ other : Contract, other.address = a → arrived other.since → other.since ≤ c.since

theorem exists_newest {arrived : Revision → Prop} {a : Address} {c : Contract}
    (haddress : c.address = a) (harrived : arrived c.since) :
    ∃ d : Contract, d.Newest arrived a := by
  classical
  obtain ⟨d, hd, hmax⟩ := Finset.exists_max_image
    (all.toFinset.filter fun d => d.address = a ∧ arrived d.since) (fun d => d.since.rank)
    ⟨c, by simp [mem_all, haddress, harrived]⟩
  simp only [Finset.mem_filter, List.mem_toFinset, mem_all, true_and] at hd hmax
  exact ⟨d, hd.1, hd.2, fun other ha hs => hmax other ⟨ha, hs⟩⟩

end Contract

namespace Registry

theorem get?_insert (t : Registry) (c : Contract) (a : Address) :
    (t.insert c).get? a = if a = c.address then some c else t.get? a := rfl

-- The last contract for an address wins, and without one the earlier entry stays.
theorem get?_extend (t : Registry) (contracts : List Contract) (a : Address) :
    (t.extend contracts).get? a =
      (contracts.reverse.find? fun c => a = c.address).or (t.get? a) := by
  induction contracts generalizing t with
  | nil => rfl
  | cons c rest ih =>
      have hstep : (t.extend (c :: rest)).get? a = ((t.insert c).extend rest).get? a := rfl
      rw [hstep, ih, get?_insert, List.reverse_cons, List.find?_append, Option.or_assoc]
      congr 1
      by_cases ha : a = c.address <;> simp [ha]

-- A registry that has, at every address, the newest contract of the revisions so far.
def Serves (t : Registry) (arrived : Revision → Prop) : Prop :=
  ∀ a c, t.get? a = some c ↔ c.Newest arrived a

theorem serves_empty (revision : Revision) : (empty revision).Serves fun _ => False := by
  intro a c
  constructor
  · intro h
    cases h
  · intro h
    exact h.came.elim

-- One revision more: its contracts, and no others, are put in.
theorem serves_extend {t : Registry} {arrived : Revision → Prop} {contracts : List Contract}
    (revision : Revision) (hserves : t.Serves arrived)
    (hnext : ∀ r, r ≤ revision ↔ arrived r ∨ r = revision)
    (hcontracts : ∀ c, c ∈ contracts ↔ c.since = revision) :
    (t.extend contracts).Serves (· ≤ revision) := by
  intro a c
  rw [get?_extend]
  cases hfind : contracts.reverse.find? fun c => a = c.address with
  | none =>
      have hnone : ∀ d : Contract, d.address = a → d.since ≠ revision := by
        intro d ha hsince
        have hmem : d ∈ contracts.reverse := List.mem_reverse.mpr ((hcontracts d).mpr hsince)
        have hd := List.find?_eq_none.mp hfind d hmem
        exact hd (by simp [ha])
      rw [Option.none_or, hserves a c]
      constructor
      · intro h
        refine ⟨h.stands, (hnext _).mpr (.inl h.came), fun other ha hother => ?_⟩
        exact h.last other ha (((hnext _).mp hother).resolve_right (hnone other ha))
      · intro h
        exact ⟨h.stands, ((hnext _).mp h.came).resolve_right (hnone c h.stands),
          fun other ha hother => h.last other ha ((hnext _).mpr (.inl hother))⟩
  | some d =>
      have hsince : d.since = revision :=
        (hcontracts d).mp (List.mem_reverse.mp (List.mem_of_find?_eq_some hfind))
      have haddress : a = d.address := by simpa using List.find?_some hfind
      rw [Option.some_or]
      constructor
      · intro h
        cases h
        exact ⟨haddress.symm, (hnext _).mpr (.inr hsince), fun other _ hother => hsince ▸ hother⟩
      · intro h
        have hlater := h.last d haddress.symm ((hnext _).mpr (.inr hsince))
        have hequal : d.since = c.since := Revision.le_antisymm hlater (hsince ▸ h.came)
        rw [Contract.eq_of_address_of_since (haddress.symm.trans h.stands.symm) hequal]

-- The four registries are built in the order of their revisions, each with all contracts of its
-- own, so that none of them is behind.
theorem ofRevision_serves (revision : Revision) : (ofRevision revision).Serves (· ≤ revision) := by
  have hhomestead : homestead.Serves (· ≤ .homestead) :=
    serves_extend .homestead (serves_empty .homestead) (fun r => by cases r <;> decide)
      (Contract.forall_of_all (by decide))
  have hbyzantium : byzantium.Serves (· ≤ .byzantium) :=
    serves_extend .byzantium hhomestead (fun r => by cases r <;> decide)
      (Contract.forall_of_all (by decide))
  have histanbul : istanbul.Serves (· ≤ .istanbul) :=
    serves_extend .istanbul hbyzantium (fun r => by cases r <;> decide)
      (Contract.forall_of_all (by decide))
  have hberlin : berlin.Serves (· ≤ .berlin) :=
    serves_extend .berlin histanbul (fun r => by cases r <;> decide)
      (Contract.forall_of_all (by decide))
  cases revision with
  | homestead => exact hhomestead
  | byzantium => exact hbyzantium
  | istanbul => exact histanbul
  | berlin => exact hberlin

end Registry

end NativeContracts
