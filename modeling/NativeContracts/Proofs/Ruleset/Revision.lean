import NativeContracts.Proofs.Ruleset.Validation
import NativeContracts.Proofs.Upgrade

namespace NativeContracts

-- The place of a fork in the chain.
def Fork.position (fork : Fork) : Nat := chain.idxOf fork

theorem Fork.mem_front_iff {present absent : List Fork} (h : chain = present ++ absent)
    (fork : Fork) : fork ∈ present ↔ fork.position < present.length := by
  rw [position, h, List.idxOf_append]
  split
  · rename_i hmem
    exact iff_of_true hmem (List.idxOf_lt_length_of_mem hmem)
  · rename_i hmem
    exact iff_of_false hmem (by omega)

-- The fork that a revision comes with.
def Revision.fork : Revision → Fork
  | homestead => .homestead
  | byzantium => .byzantium
  | istanbul => .istanbul
  | berlin => .berlin

-- Revisions are ordered as their forks are in the chain.
theorem Revision.position_fork_le {s t : Revision} (h : s ≤ t) :
    s.fork.position ≤ t.fork.position := by
  revert h
  cases s <;> cases t <;> decide

namespace Ruleset

variable {r : Ruleset}

-- Rules are in order if with any fork all forks before it are active.
theorem validate_eq_ok_iff_active :
    r.validate = .ok () ↔
      ∀ earlier later : Fork, earlier.position ≤ later.position →
        r.active later = true → r.active earlier = true := by
  rw [validate_eq_ok_iff, brokenLinkFrom_eq_none_iff]
  constructor
  · rintro ⟨present, absent, hchain, hpresent, habsent⟩ earlier later hle hlater
    have hmem : later ∈ present := by
      have hsome := hchain ▸ Fork.mem_chain later
      refine (List.mem_append.mp hsome).resolve_right fun hmem => ?_
      rw [habsent later hmem] at hlater
      cases hlater
    rw [Fork.mem_front_iff hchain] at hmem
    exact hpresent earlier ((Fork.mem_front_iff hchain earlier).mpr (by omega))
  · intro hclosed
    rcases r.active_or_exists_missing Fork.chain with
      hall | ⟨before, missing, later, hchain, hbefore, hmissing⟩
    · exact ⟨Fork.chain, [], by simp, hall, by simp⟩
    · have hfirst : missing.position < before.length + 1 := by
        have hfront : Fork.chain = (before ++ [missing]) ++ later := by simp [hchain]
        simpa using (Fork.mem_front_iff hfront missing).mp (by simp)
      refine ⟨before, missing :: later, hchain, hbefore, fun f hf => ?_⟩
      by_contra hactive
      have hbehind : ¬ f.position < before.length := by
        rw [← Fork.mem_front_iff hchain]
        intro hmem
        have hdistinct := hchain ▸ Fork.nodup_chain
        exact (List.nodup_append.mp hdistinct).2.2 f hmem f hf rfl
      have hactive' := hclosed missing f (by omega) (Bool.not_eq_false _ ▸ hactive)
      rw [hmissing] at hactive'
      cases hactive'

theorem validate_withChainId (r : Ruleset) (chainId : UInt64) :
    (r.withChainId chainId).validate = r.validate := by
  have hsame := brokenLinkFrom_congr (s := r.withChainId chainId) (r := r) (fun _ => rfl) none
    Fork.chain
  simp only [validate, brokenLink?, hsame]

theorem revision_ofRevision (s : Revision) : (ofRevision s).revision = s := by
  cases s <;> rfl

-- What is active are the forks up to the one that the revision comes with. Only the first revision
-- has more.
theorem active_ofRevision_iff {s : Revision} (h : .homestead < s) (f : Fork) :
    (ofRevision s).active f = true ↔ f.position ≤ s.fork.position := by
  cases s with
  | homestead => exact absurd h (by decide)
  | byzantium => cases f <;> decide
  | istanbul => cases f <;> decide
  | berlin => cases f <;> decide

theorem validate_ofRevision {s : Revision} (h : .homestead < s) :
    (ofRevision s).validate = .ok () := by
  rw [validate_eq_ok_iff_active]
  intro earlier later hle hlater
  rw [active_ofRevision_iff h] at hlater ⊢
  exact hle.trans hlater

theorem active_fork_revision (h : .homestead < r.revision) :
    r.active r.revision.fork = true := by
  revert h
  unfold revision
  split
  · rename_i hberlin
    exact fun _ => hberlin
  split
  · rename_i histanbul
    exact fun _ => histanbul
  split
  · rename_i hbyzantium
    exact fun _ => hbyzantium
  · intro h
    exact absurd h (by decide)

-- A rule set that says as much as a revision's own has at least this revision.
theorem le_revision_of_active {s : Revision}
    (h : ∀ f, (ofRevision s).active f = true → r.active f = true) : s ≤ r.revision := by
  have hle := revision_le_of_active (h .byzantium) (h .istanbul) (h .berlin)
  rwa [revision_ofRevision] at hle

-- In rules that are in order, the fork of the revision has all forks of an earlier one before it.
theorem active_of_le_revision {s : Revision} (hs : .homestead < s) (hvalid : r.validate = .ok ())
    (hle : s ≤ r.revision) {f : Fork} (hf : (ofRevision s).active f = true) :
    r.active f = true := by
  have hrevision : .homestead < r.revision := Nat.lt_of_lt_of_le hs hle
  rw [active_ofRevision_iff hs] at hf
  rw [validate_eq_ok_iff_active] at hvalid
  exact hvalid f r.revision.fork (hf.trans (Revision.position_fork_le hle))
    (active_fork_revision hrevision)

end Ruleset

-- A revision is reached exactly by the rules that have all its forks, if the rules are in order.
-- So its own rule set is the least of those that are in order and have this revision. The first
-- revision is left out, for it is also that of rules without any fork.
theorem ofRevision_is_least_at_its_revision (r : Ruleset) (s : Revision)
    (h : Revision.homestead < s) :
    let least := Ruleset.ofRevision s
    (r.validate = .ok () → (s ≤ r.revision ↔ ∀ f, least.active f → r.active f)) ∧
      ((∀ f, least.active f → r.active f) → s ≤ r.revision) ∧
      least.validate = .ok () ∧ least.revision = s ∧
      (∀ t : Ruleset, t.validate = .ok () → t.revision = s → ∀ f, least.active f → t.active f) ∧
      ∀ (t : Ruleset) (chainId : UInt64),
        (t.withChainId chainId).validate = t.validate ∧
          (t.withChainId chainId).revision = t.revision ∧
          (t.withChainId chainId).active = t.active := by
  intro least
  have hback : (∀ f, least.active f → r.active f) → s ≤ r.revision :=
    Ruleset.le_revision_of_active
  refine ⟨fun hvalid => ⟨fun hle f hf => ?_, hback⟩, hback, Ruleset.validate_ofRevision h,
    Ruleset.revision_ofRevision s, fun t hvalid hrevision f hf => ?_, fun t chainId => ?_⟩
  · exact Ruleset.active_of_le_revision h hvalid hle hf
  · exact Ruleset.active_of_le_revision h hvalid (hrevision ▸ Revision.le_refl s) hf
  · exact ⟨t.validate_withChainId chainId, rfl, rfl⟩

-- The first rule set stops one fork before the next revision. The second one has the newest
-- revision and no other fork of it.
theorem petersburg_rules_between_revisions :
    let r : Ruleset := ⟨7, fun f => f.position ≤ Fork.petersburg.position⟩
    let gapped : Ruleset := ⟨7, fun f => f = .berlin⟩
    r.validate = .ok () ∧ (∀ f, (Ruleset.ofRevision .byzantium).active f → r.active f) ∧
      ¬ (∀ f, (Ruleset.ofRevision .istanbul).active f → r.active f) ∧
      gapped.validate ≠ .ok () ∧ Revision.berlin ≤ gapped.revision ∧
      ¬ ∀ f, (Ruleset.ofRevision .berlin).active f → gapped.active f := by
  intro r gapped
  have hvalid : r.validate = .ok () := by decide
  have hbyzantium := (ofRevision_is_least_at_its_revision r .byzantium (by decide)).1 hvalid
  have histanbul := (ofRevision_is_least_at_its_revision r .istanbul (by decide)).1 hvalid
  refine ⟨hvalid, hbyzantium.mp (by decide), mt histanbul.mpr (by decide), by decide, by decide,
    fun hall => ?_⟩
  exact absurd (hall .homestead rfl) (by decide)

end NativeContracts
