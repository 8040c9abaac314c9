import NativeContracts.Dispatcher
import NativeContracts.Proofs.Registry

namespace NativeContracts

theorem Revision.not_lt {a b : Revision} : ¬ a < b ↔ b ≤ a := Nat.not_lt

theorem Contract.newest_iff {arrived : Revision → Prop} {a : Address} {c : Contract} :
    c.Newest arrived a ↔ c.address = a ∧ arrived c.since ∧
      ¬ ∃ other : Contract, other.address = a ∧ arrived other.since ∧ c.since < other.since := by
  constructor
  · rintro ⟨hstands, hcame, hlast⟩
    refine ⟨hstands, hcame, ?_⟩
    rintro ⟨other, ha, harrived, hless⟩
    exact Revision.not_lt.mpr (hlast other ha harrived) hless
  · rintro ⟨hstands, hcame, hnone⟩
    refine ⟨hstands, hcame, fun other ha harrived => ?_⟩
    by_contra hle
    exact hnone ⟨other, ha, harrived, by rwa [← Revision.not_lt, not_not] at hle⟩

namespace Registry

theorem revision_extend (t : Registry) (contracts : List Contract) :
    (t.extend contracts).revision = t.revision := by
  induction contracts generalizing t with
  | nil => rfl
  | cons c rest ih => exact ih (t.insert c)

theorem revision_ofRevision (revision : Revision) : (ofRevision revision).revision = revision := by
  cases revision with
  | homestead => exact revision_extend _ _
  | byzantium => exact revision_extend _ _
  | istanbul => exact revision_extend _ _
  | berlin => exact revision_extend _ _

-- A registry that serves the newest contracts has nothing only where nothing has arrived.
theorem Serves.get?_eq_none_iff {t : Registry} {arrived : Revision → Prop}
    (hserves : t.Serves arrived) (a : Address) :
    t.get? a = none ↔ ¬ ∃ c : Contract, c.address = a ∧ arrived c.since := by
  constructor
  · rintro hnone ⟨c, ha, harrived⟩
    obtain ⟨d, hd⟩ := Contract.exists_newest ha harrived
    have hsome := (hserves a d).mpr hd
    rw [hnone] at hsome
    cases hsome
  · intro hnothing
    cases hget : t.get? a with
    | none => rfl
    | some c =>
        have hc := (hserves a c).mp hget
        exact absurd ⟨c, hc.stands, hc.came⟩ hnothing

end Registry

theorem lookup_is_newest_arrived (r : Ruleset) (a : Address) :
    let d := Dispatcher.ofRuleset r
    (∀ c, d.get? a = some c ↔
      c.address = a ∧ c.since ≤ r.revision ∧
        ¬ ∃ other : Contract, other.address = a ∧ other.since ≤ r.revision ∧
          c.since < other.since) ∧
      (d.get? a = none ↔ ¬ ∃ c : Contract, c.address = a ∧ c.since ≤ r.revision) ∧
      d.revision = r.revision ∧ d.registry.revision = r.revision ∧
      d.get? a = d.registry.get? a ∧ d.contains a = d.registry.contains a ∧
      d.contains a = (d.get? a).isSome := by
  intro d
  have hserves : d.registry.Serves (· ≤ r.revision) := Registry.ofRevision_serves r.revision
  refine ⟨fun c => ?_, hserves.get?_eq_none_iff a, rfl, ?_, rfl, rfl, rfl⟩
  · exact (hserves a c).trans Contract.newest_iff
  · exact Registry.revision_ofRevision r.revision

end NativeContracts
