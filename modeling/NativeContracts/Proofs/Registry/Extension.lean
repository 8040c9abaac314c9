import NativeContracts.Proofs.Dispatcher
import NativeContracts.Proofs.Registry.Listing
import Mathlib.Data.Set.Card

namespace NativeContracts

namespace Address

instance : Std.Irrefl (α := Address) (· < ·) := ⟨fun a => Nat.lt_irrefl a.toNat⟩

instance : Std.Antisymm (α := Address) (· < ·) :=
  ⟨fun _ _ hab hba => absurd hba (Nat.lt_asymm hab)⟩

end Address

namespace Contract

-- The contract of a list that comes last at an address.
def lastAt (contracts : List Contract) (a : Address) : Option Contract :=
  (contracts.filter fun c => c.address = a).getLast?

-- Contracts of different addresses do not meet at any address.
theorem lastAt_exchange (before after : List Contract) {c d : Contract}
    (h : c.address ≠ d.address) (a : Address) :
    lastAt (before ++ d :: c :: after) a = lastAt (before ++ c :: d :: after) a := by
  simp only [lastAt, List.filter_append, List.filter_cons]
  by_cases hc : c.address = a
  · have hd : d.address ≠ a := fun hd => h (hc.trans hd.symm)
    simp [hc, hd]
  · simp [hc]

theorem lastAt_perm {contracts others : List Contract} (hperm : contracts.Perm others)
    (hdistinct : contracts.Pairwise fun c d => c.address ≠ d.address) (a : Address) :
    lastAt contracts a = lastAt others a := by
  have hfilter := hperm.filter fun c => c.address = a
  have hpairwise := hdistinct.filter fun c => c.address = a
  have hall : ∀ c ∈ contracts.filter fun c => c.address = a, c.address = a := by
    intro c hc
    simpa using List.of_mem_filter hc
  unfold lastAt
  generalize contracts.filter (fun c => c.address = a) = standing at *
  cases standing with
  | nil => rw [hfilter.symm.eq_nil]
  | cons c rest =>
      cases rest with
      | nil => rw [List.perm_singleton.mp hfilter.symm]
      | cons d rest =>
          have hne := (List.pairwise_cons.mp hpairwise).1 d List.mem_cons_self
          have hc := hall c List.mem_cons_self
          have hd := hall d (.tail _ List.mem_cons_self)
          exact absurd (hc.trans hd.symm) hne

end Contract

namespace Registry

open Contract (lastAt)

variable {t u : Registry}

theorem get?_extend_eq_lastAt (t : Registry) (contracts : List Contract) (a : Address) :
    (t.extend contracts).get? a = (lastAt contracts a).or (t.get? a) := by
  simp only [get?_extend, lastAt, List.getLast?_filter, eq_comm (a := a)]

theorem isSome_get?_extend_iff (t : Registry) (contracts : List Contract) (a : Address) :
    ((t.extend contracts).get? a).isSome ↔
      (t.get? a).isSome ∨ a ∈ contracts.map Contract.address := by
  have hlast : (lastAt contracts a).isSome ↔ a ∈ contracts.map Contract.address := by
    simp [lastAt, List.getLast?_filter]
  rw [get?_extend_eq_lastAt, Option.isSome_or, Bool.or_eq_true, hlast, or_comm]

namespace Listed

-- The order leaves no choice: what stands at the addresses settles their list too.
theorem eq_of_get?_eq (ht : t.Listed) (hu : u.Listed) (hrevision : t.revision = u.revision)
    (hget : ∀ a, t.get? a = u.get? a) : t = u := by
  have haddresses : t.addresses = u.addresses := by
    apply ht.ascending.eq_of_mem_iff hu.ascending
    intro a
    rw [ht.mem_addresses, hu.mem_addresses, hget]
  have hslots : t.slots = u.slots := funext hget
  cases t
  cases u
  simp only [mk.injEq]
  exact ⟨hrevision, hslots, haddresses⟩

theorem extend_eq_of_lastAt_eq (h : t.Listed) {contracts others : List Contract}
    (hlast : ∀ a, lastAt contracts a = lastAt others a) : t.extend contracts = t.extend others := by
  apply (h.extend contracts).eq_of_get?_eq (h.extend others)
  · rw [revision_extend, revision_extend]
  · intro a
    rw [get?_extend_eq_lastAt, get?_extend_eq_lastAt, hlast]

theorem extend_extend (h : t.Listed) (contracts : List Contract) :
    (t.extend contracts).extend contracts = t.extend contracts := by
  have hlisted := h.extend contracts
  apply (hlisted.extend contracts).eq_of_get?_eq hlisted
  · rw [revision_extend]
  · intro a
    rw [get?_extend_eq_lastAt, get?_extend_eq_lastAt, ← Option.or_assoc, Option.or_self]

theorem encard_addresses (h : t.Listed) : {a | (t.get? a).isSome}.encard = t.size := by
  have hset : {a | (t.get? a).isSome} = (t.addresses.toFinset : Set Address) := by
    ext a
    simp [h.mem_addresses]
  rw [hset, Set.encard_coe_eq_coe_finsetCard, List.toFinset_card_of_nodup h.ascending.nodup, size]

end Listed

end Registry

open Contract (lastAt)

-- Of several contracts for an address the last one counts, and nothing else about their order.
theorem extension_keeps_last_contracts (t : Registry) (h : t.Listed) (contracts : List Contract) :
    (∀ a, (t.extend contracts).get? a = (lastAt contracts a).or (t.get? a)) ∧
      (∀ a, (t.get? a).isSome → ((t.extend contracts).get? a).isSome) ∧
      (t.extend contracts).size =
        ({a | (t.get? a).isSome} ∪ {a | a ∈ contracts.map Contract.address}).encard ∧
      (∀ others, (∀ a, lastAt contracts a = lastAt others a) →
        t.extend contracts = t.extend others) ∧
      (∀ others, contracts.Perm others →
        contracts.Pairwise (fun c d => c.address ≠ d.address) →
        t.extend contracts = t.extend others) ∧
      (∀ before c d after, contracts = before ++ c :: d :: after → c.address ≠ d.address →
        t.extend contracts = t.extend (before ++ d :: c :: after)) ∧
      (t.extend contracts).extend contracts = t.extend contracts := by
  refine ⟨t.get?_extend_eq_lastAt contracts, fun a ha => ?_, ?_,
    fun others => h.extend_eq_of_lastAt_eq, fun others hperm hdistinct => ?_, ?_,
    h.extend_extend contracts⟩
  · exact (t.isSome_get?_extend_iff contracts a).mpr (.inl ha)
  · rw [← (h.extend contracts).encard_addresses]
    congr 1
    ext a
    exact t.isSome_get?_extend_iff contracts a
  · exact h.extend_eq_of_lastAt_eq (Contract.lastAt_perm hperm hdistinct)
  · rintro before c d after rfl hne
    exact h.extend_eq_of_lastAt_eq fun a => (Contract.lastAt_exchange before after hne a).symm

-- A price is changed and changed back, around a contract that is new.
theorem price_taken_back :
    let t := Registry.byzantium
    let contracts := [Contract.bn254Add .istanbul, .blake2f, .bn254Add .byzantium]
    t.Listed ∧ (t.extend contracts).get? .bn254Add = some (.bn254Add .byzantium) ∧
      (t.extend contracts).addresses = Address.wellknown ∧
      t.extend contracts = t.extend [.blake2f, .bn254Add .byzantium] := by
  intro t contracts
  have hlisted : t.Listed := (Registry.ofRevision_built .byzantium).listed
  have hlast : ∀ a, lastAt contracts a = lastAt [.blake2f, .bn254Add .byzantium] a := by
    intro a
    by_cases hadd : Address.bn254Add = a <;> by_cases hblake : Address.blake2f = a <;>
      simp [contracts, lastAt, Contract.address, hadd, hblake]
  obtain ⟨hget, -, -, hsame, -⟩ := extension_keeps_last_contracts t hlisted contracts
  exact ⟨hlisted, (hget .bn254Add).trans (by decide), by decide +kernel, hsame _ hlast⟩

end NativeContracts
