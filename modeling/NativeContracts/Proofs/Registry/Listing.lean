import NativeContracts.Dispatcher
import NativeContracts.Proofs.Registry

namespace NativeContracts

namespace Address

theorem lt_trans {a b c : Address} (hab : a < b) (hbc : b < c) : a < c := Nat.lt_trans hab hbc

theorem lt_of_not_lt {a b : Address} (h : ¬ a < b) (hne : a ≠ b) : b < a := by
  have hle : b.toNat ≤ a.toNat := Nat.not_lt.mp h
  have hne' : b.toNat ≠ a.toNat := fun heq => hne (toNat_inj.mp heq.symm)
  exact Nat.lt_of_le_of_ne hle hne'

theorem mem_insertOrdered {a b : Address} {addresses : List Address} :
    b ∈ a.insertOrdered addresses ↔ b = a ∨ b ∈ addresses := by
  induction addresses with
  | nil => simp [insertOrdered]
  | cons first rest ih =>
      simp only [insertOrdered]
      split
      · simp
      · simp only [List.mem_cons, ih]
        tauto

theorem pairwise_insertOrdered {a : Address} {addresses : List Address}
    (hascending : addresses.Pairwise (· < ·)) (hnew : a ∉ addresses) :
    (a.insertOrdered addresses).Pairwise (· < ·) := by
  induction addresses with
  | nil => simp [insertOrdered]
  | cons first rest ih =>
      have hrest := List.pairwise_cons.mp hascending
      simp only [insertOrdered]
      split
      · rename_i hless
        refine List.pairwise_cons.mpr ⟨fun b hb => ?_, hascending⟩
        rcases List.mem_cons.mp hb with rfl | hb
        · exact hless
        · exact lt_trans hless (hrest.1 b hb)
      · rename_i hless
        have hfirst : first < a := lt_of_not_lt hless fun heq => hnew (heq ▸ List.mem_cons_self)
        refine List.pairwise_cons.mpr ⟨fun b hb => ?_, ih hrest.2 fun hmem => hnew (.tail _ hmem)⟩
        rcases mem_insertOrdered.mp hb with rfl | hb
        · exact hfirst
        · exact hrest.1 b hb

-- Any way of finding the place by the order alone finds the same one.
theorem insertOrdered_append {a : Address} {below above : List Address}
    (hbelow : ∀ b ∈ below, b < a) (habove : ∀ b ∈ above, ¬ b < a) (hnew : a ∉ above) :
    a.insertOrdered (below ++ above) = below ++ a :: above := by
  induction below with
  | nil =>
      cases above with
      | nil => rfl
      | cons first rest =>
          have hne : first ≠ a := fun heq => hnew (heq ▸ List.mem_cons_self)
          have hless : a < first := lt_of_not_lt (habove first List.mem_cons_self) hne
          exact if_pos hless
  | cons first rest ih =>
      have hless : first < a := hbelow first List.mem_cons_self
      have hnot : ¬ a < first := fun hgreater => Nat.lt_asymm hless hgreater
      simp only [List.cons_append, insertOrdered, if_neg hnot]
      rw [ih fun b hb => hbelow b (.tail _ hb)]

end Address

namespace Registry

-- Registries as they come about: contracts are put in, and the result may be taken over to
-- another revision.
inductive Built : Registry → Prop
  | empty (revision : Revision) : Built (empty revision)
  | extend {t : Registry} (contracts : List Contract) (h : Built t) : Built (t.extend contracts)
  | carry {t : Registry} (revision : Revision) (h : Built t) : Built { t with revision }

theorem ofRevision_built (revision : Revision) : (ofRevision revision).Built := by
  have hhomestead : homestead.Built := .extend _ (.empty _)
  have hbyzantium : byzantium.Built := .extend _ (.carry _ hhomestead)
  have histanbul : istanbul.Built := .extend _ (.carry _ hbyzantium)
  cases revision with
  | homestead => exact hhomestead
  | byzantium => exact hbyzantium
  | istanbul => exact histanbul
  | berlin => exact .extend _ (.carry _ histanbul)

-- The list of addresses and the slots tell the same.
structure Listed (t : Registry) : Prop where
  ascending : t.addresses.Pairwise (· < ·)
  mem_addresses : ∀ a, a ∈ t.addresses ↔ (t.get? a).isSome
  stands : ∀ a c, t.get? a = some c → c.address = a

theorem listed_empty (revision : Revision) : (empty revision).Listed where
  ascending := List.Pairwise.nil
  mem_addresses a := by simp [empty, get?]
  stands a c h := by cases h

theorem addresses_insert_of_contains {t : Registry} {c : Contract}
    (h : t.contains c.address = true) : (t.insert c).addresses = t.addresses :=
  if_pos h

theorem addresses_insert_of_not_contains {t : Registry} {c : Contract}
    (h : t.contains c.address = false) :
    (t.insert c).addresses = c.address.insertOrdered t.addresses := by
  simp [insert, h]

namespace Listed

variable {t : Registry}

theorem contains_iff (h : t.Listed) (a : Address) : t.contains a = true ↔ a ∈ t.addresses :=
  (h.mem_addresses a).symm

theorem not_mem_addresses (h : t.Listed) {a : Address} (hfresh : t.contains a = false) :
    a ∉ t.addresses := by
  rw [← h.contains_iff, hfresh]
  decide

-- An address that is already there keeps its place, and a fresh one gets its own.
theorem insert (h : t.Listed) (c : Contract) : (t.insert c).Listed where
  ascending := by
    cases hcontains : t.contains c.address with
    | true =>
        rw [addresses_insert_of_contains hcontains]
        exact h.ascending
    | false =>
        rw [addresses_insert_of_not_contains hcontains]
        exact Address.pairwise_insertOrdered h.ascending (h.not_mem_addresses hcontains)
  mem_addresses a := by
    have hmem : a ∈ (t.insert c).addresses ↔ a = c.address ∨ a ∈ t.addresses := by
      cases hcontains : t.contains c.address with
      | true =>
          have hlisted := (h.contains_iff _).mp hcontains
          rw [addresses_insert_of_contains hcontains]
          exact ⟨.inr, fun hor => hor.elim (· ▸ hlisted) id⟩
      | false =>
          rw [addresses_insert_of_not_contains hcontains]
          exact Address.mem_insertOrdered
    rw [hmem, get?_insert, h.mem_addresses]
    by_cases ha : a = c.address <;> simp [ha]
  stands a d hget := by
    rw [get?_insert] at hget
    split at hget
    · rename_i ha
      cases hget
      exact ha.symm
    · exact h.stands a d hget

theorem extend (h : t.Listed) (contracts : List Contract) : (t.extend contracts).Listed := by
  induction contracts generalizing t with
  | nil => exact h
  | cons c rest ih => exact ih (h.insert c)

-- The filter in the list of entries drops nothing.
theorem map_fst_entries (h : t.Listed) : t.entries.map Prod.fst = t.addresses := by
  have hall : ∀ addresses : List Address, (∀ a ∈ addresses, (t.get? a).isSome) →
      (addresses.filterMap fun a => (t.get? a).map fun c => (a, c)).map Prod.fst = addresses := by
    intro addresses hsome
    induction addresses with
    | nil => rfl
    | cons a rest ih =>
        obtain ⟨c, hc⟩ := Option.isSome_iff_exists.mp (hsome a List.mem_cons_self)
        have hrest := ih fun b hb => hsome b (.tail _ hb)
        simp only [List.filterMap_cons, hc, Option.map_some, List.map_cons, hrest]
  exact hall t.addresses fun a ha => (h.mem_addresses a).mp ha

theorem mem_entries_iff (h : t.Listed) (a : Address) (c : Contract) :
    (a, c) ∈ t.entries ↔ t.get? a = some c := by
  simp only [entries, List.mem_filterMap, Option.map_eq_some_iff, Prod.mk.injEq]
  constructor
  · rintro ⟨_, -, _, hget, rfl, rfl⟩
    exact hget
  · intro hget
    have hmem : a ∈ t.addresses := (h.mem_addresses a).mpr (by rw [hget]; rfl)
    exact ⟨a, hmem, c, hget, rfl, rfl⟩

theorem pairwise_entries (h : t.Listed) :
    t.entries.Pairwise fun entry later => entry.1 < later.1 := by
  rw [← List.pairwise_map (f := Prod.fst) (R := (· < ·)), h.map_fst_entries]
  exact h.ascending

theorem length_entries (h : t.Listed) : t.entries.length = t.size := by
  rw [size, ← h.map_fst_entries, List.length_map]

theorem isEmpty_iff (h : t.Listed) : t.isEmpty = true ↔ ∀ a, t.get? a = none := by
  rw [isEmpty, List.isEmpty_iff, List.eq_nil_iff_forall_not_mem]
  simp only [h.mem_addresses, Option.not_isSome_iff_eq_none]

end Listed

theorem Built.listed {t : Registry} (h : t.Built) : t.Listed := by
  induction h with
  | empty revision => exact listed_empty revision
  | extend contracts _ ih => exact ih.extend contracts
  | carry revision _ ih => exact ⟨ih.ascending, ih.mem_addresses, ih.stands⟩

end Registry

-- What holds of every registry that comes about holds of those of the four revisions, and so of
-- the one that a dispatcher has. The place of a fresh address is found by the order alone, so that
-- a search may halve the list.
theorem built_registry_lists_its_contracts :
    (∀ t : Registry, t.Built →
      t.Listed ∧
      (∀ a, (t.contains a = true ↔ (t.get? a).isSome) ∧
        (t.contains a = true ↔ a ∈ t.addresses)) ∧
      t.entries.length = t.size ∧ t.entries.map Prod.fst = t.addresses ∧
      t.entries.Pairwise (fun entry later => entry.1 < later.1) ∧
      (∀ a c, (a, c) ∈ t.entries ↔ t.get? a = some c) ∧
      (t.isEmpty = true ↔ ∀ a, t.get? a = none) ∧
      ∀ (c : Contract) (below above : List Address), t.contains c.address = false →
        t.addresses = below ++ above → (∀ b ∈ below, b < c.address) →
        (∀ b ∈ above, ¬ b < c.address) →
        (t.insert c).addresses = below ++ c.address :: above) ∧
    (∀ revision, (Registry.ofRevision revision).Built) ∧
    ∀ r, let d := Dispatcher.ofRuleset r
      d.registry.Built ∧ ∀ a, (d.contains a = true ↔ (d.get? a).isSome) ∧
        (d.contains a = true ↔ a ∈ d.warmAddresses) := by
  refine ⟨fun t hbuilt => ?_, Registry.ofRevision_built, fun r => ?_⟩
  · have h := hbuilt.listed
    refine ⟨h, fun a => ⟨Iff.rfl, h.contains_iff a⟩, h.length_entries, h.map_fst_entries,
      h.pairwise_entries, h.mem_entries_iff, h.isEmpty_iff, ?_⟩
    intro c below above hfresh hsplit hbelow habove
    have hnew : c.address ∉ t.addresses := h.not_mem_addresses hfresh
    rw [hsplit] at hnew
    rw [Registry.addresses_insert_of_not_contains hfresh, hsplit]
    exact Address.insertOrdered_append hbelow habove fun hmem =>
      hnew (List.mem_append_right below hmem)
  · have hbuilt := Registry.ofRevision_built r.revision
    exact ⟨hbuilt, fun a => ⟨Iff.rfl, hbuilt.listed.contains_iff a⟩⟩

-- The newest contracts come first, and one price is taken back.
theorem repriced_registry_lists_once :
    let t := ((Registry.empty .homestead).extend [.blake2f, .modexp .eip2565, .identity]).extend
      [.modexp .eip198, .blake2f]
    t.Built ∧
      t.entries = [(.identity, .identity), (.modexp, .modexp .eip198), (.blake2f, .blake2f)] ∧
      t.entries.length = t.size ∧
      (∀ a, t.contains a = true ↔ a ∈ [Address.identity, .modexp, .blake2f]) ∧
      ((t.insert (.bn254Add .istanbul)).addresses =
        [Address.identity, .modexp] ++ Address.bn254Add :: [.blake2f]) := by
  intro t
  have hbuilt : t.Built := .extend _ (.extend _ (.empty _))
  obtain ⟨-, hcontains, hlength, -, -, -, -, hinsert⟩ :=
    built_registry_lists_its_contracts.1 t hbuilt
  have haddresses : t.addresses = [Address.identity, .modexp, .blake2f] := by decide +kernel
  refine ⟨hbuilt, by decide +kernel, hlength, fun a => ?_, ?_⟩
  · rw [← haddresses]
    exact (hcontains a).2
  · exact hinsert (.bn254Add .istanbul) [.identity, .modexp] [.blake2f] (by decide +kernel)
      haddresses (by decide +kernel) (by decide +kernel)

end NativeContracts
