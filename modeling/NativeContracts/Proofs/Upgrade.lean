import NativeContracts.Proofs.Operation
import NativeContracts.Proofs.Registry

namespace NativeContracts

-- The second result is as good as the first: the same output or error, and no less gas. Neither
-- is out of gas.
inductive CallResult.NoWorse {ε : Type} : CallResult ε → CallResult ε → Prop
  | ok (output : Bytes) {left kept : Gas} (h : left ≤ kept) :
      NoWorse (.ok ⟨output, left⟩) (.ok ⟨output, kept⟩)
  | execution (error : ε) {left kept : Gas} (h : left ≤ kept) :
      NoWorse (.error (.execution error left)) (.error (.execution error kept))

theorem CallResult.NoWorse.not_runsOut {ε : Type} {before after : CallResult ε}
    (h : before.NoWorse after) : ¬ after.RunsOut := by
  rintro ⟨required, supplied, hafter⟩
  cases h with
  | ok => cases hafter
  | execution => cases hafter

namespace Ruleset

-- A rule set may say more about the forks that have registries, and whatever it likes otherwise.
theorem revision_le_of_active {r s : Ruleset}
    (hbyzantium : r.active .byzantium → s.active .byzantium)
    (histanbul : r.active .istanbul → s.active .istanbul)
    (hberlin : r.active .berlin → s.active .berlin) : r.revision ≤ s.revision := by
  unfold revision
  by_cases hr : r.active .berlin
  · rw [if_pos hr, if_pos (hberlin hr)]
    exact Revision.le_refl _
  rw [if_neg hr]
  by_cases hr' : r.active .istanbul
  · rw [if_pos hr', if_pos (histanbul hr')]
    split <;> decide
  rw [if_neg hr']
  by_cases hr'' : r.active .byzantium
  · rw [if_pos hr'', if_pos (hbyzantium hr'')]
    split_ifs <;> decide
  rw [if_neg hr'']
  split_ifs <;> decide

end Ruleset

namespace Contract

-- The contracts that a later one replaces at the same address, each with its successor.
def repricings : List (Contract × Contract) :=
  [(.modexp .eip198, .modexp .eip2565), (.bn254Add .byzantium, .bn254Add .istanbul),
   (.bn254Mul .byzantium, .bn254Mul .istanbul), (.bn254Pairing .byzantium, .bn254Pairing .istanbul)]

theorem eq_or_mem_repricings {c d : Contract} (haddress : c.address = d.address)
    (hsince : c.since ≤ d.since) : c = d ∨ (c, d) ∈ repricings := by
  have hall : ∀ c d : Contract, c.address = d.address → c.since ≤ d.since →
      c = d ∨ (c, d) ∈ repricings :=
    forall_pair_of_all (by decide +kernel)
  exact hall c d haddress hsince

theorem name_eq_of_address_eq {c d : Contract} (h : c.address = d.address) : c.name = d.name := by
  have hall : ∀ c d : Contract, c.address = d.address → c.name = d.name :=
    forall_pair_of_all (by decide +kernel)
  exact hall c d h

theorem attempt_of_mem_repricings {c d : Contract} (h : (c, d) ∈ repricings) (input : Bytes) :
    d.attempt input = c.attempt input := by
  simp only [repricings, List.mem_cons, Prod.mk.injEq, List.not_mem_nil, or_false] at h
  rcases h with ⟨rfl, rfl⟩ | ⟨rfl, rfl⟩ | ⟨rfl, rfl⟩ | ⟨rfl, rfl⟩
  · rw [attempt_modexp, attempt_modexp]
  · rw [attempt_bn254Add, attempt_bn254Add]
  · rw [attempt_bn254Mul, attempt_bn254Mul]
  · rw [attempt_bn254Pairing, attempt_bn254Pairing]

theorem quote_le_of_mem_repricings {c d : Contract} (h : (c, d) ∈ repricings)
    (hmodexp : c.address ≠ Address.modexp) (input : Bytes) : d.quote input ≤ c.quote input := by
  simp only [repricings, List.mem_cons, Prod.mk.injEq, List.not_mem_nil, or_false] at h
  rcases h with ⟨rfl, rfl⟩ | ⟨rfl, rfl⟩ | ⟨rfl, rfl⟩ | ⟨rfl, rfl⟩
  · exact absurd rfl hmodexp
  · exact (by decide : Bn254.Pricing.istanbul.sum ≤ Bn254.Pricing.byzantium.sum)
  · exact (by decide : Bn254.Pricing.istanbul.multiple ≤ Bn254.Pricing.byzantium.multiple)
  · exact Price.pairing_le_pairing (by decide) (by decide) input.length

-- A later revision has a contract wherever an earlier one has one, and none of an earlier date.
theorem Newest.of_le {a : Address} {c : Contract} {earlier later : Revision}
    (h : c.Newest (· ≤ earlier) a) (hle : earlier ≤ later) :
    ∃ d : Contract, d.Newest (· ≤ later) a ∧ c.since ≤ d.since := by
  have hcame : c.since ≤ later := Revision.le_trans h.came hle
  obtain ⟨d, hd⟩ : ∃ d : Contract, d.Newest (· ≤ later) a := exists_newest h.stands hcame
  exact ⟨d, hd, hd.last c h.stands hcame⟩

-- A contract that does the same for less gas serves every call at least as well.
theorem answer_noWorse {c d : Contract} {call : Call}
    (hattempt : d.attempt call.input = c.attempt call.input)
    (hquote : d.quote call.input ≤ c.quote call.input) (hanswer : ¬ (c.answer call).RunsOut) :
    (c.answer call).NoWorse (d.answer call) := by
  have hpaid : c.quote call.input ≤ call.gasLimit := quote_le_of_not_runsOut hanswer
  have hpaid' : d.quote call.input ≤ call.gasLimit := UInt64.le_trans hquote hpaid
  have hleft : call.gasLimit - c.quote call.input ≤ call.gasLimit - d.quote call.input := by
    rw [UInt64.le_iff_toNat_le] at hquote ⊢
    rw [UInt64.toNat_sub_of_le _ _ hpaid, UInt64.toNat_sub_of_le _ _ hpaid']
    exact Nat.sub_le_sub_left hquote _
  rw [answer_of_le c call hpaid, answer_of_le d call hpaid', hattempt]
  cases c.attempt call.input with
  | ok output => exact .ok output hleft
  | error fault => exact .execution _ hleft

end Contract

-- Whatever a rule set has, one that says as much about the three forks has too: under the same
-- name, doing the same, and for no more gas unless it is the modular exponentiation.
theorem upgrade_keeps_contracts (r s : Ruleset)
    (hbyzantium : r.active .byzantium → s.active .byzantium)
    (histanbul : r.active .istanbul → s.active .istanbul)
    (hberlin : r.active .berlin → s.active .berlin) (a : Address) (c : Contract)
    (hget : (Dispatcher.ofRuleset r).get? a = some c) :
    ∃ d, (Dispatcher.ofRuleset s).get? a = some d ∧ d.address = a ∧ d.name = c.name ∧
      (∀ invocation, d.operation.execute invocation = c.operation.execute invocation) ∧
      (a ≠ Address.modexp →
        (∀ input, d.quote input ≤ c.quote input) ∧
        ∀ call, ¬ (c.answer call).RunsOut →
          ¬ (d.answer call).RunsOut ∧ (c.answer call).NoWorse (d.answer call)) := by
  have hc := (Registry.ofRevision_serves r.revision a c).mp hget
  have hrevision := Ruleset.revision_le_of_active hbyzantium histanbul hberlin
  obtain ⟨d, hd, hsince⟩ := hc.of_le hrevision
  have haddress : c.address = d.address := hc.stands.trans hd.stands.symm
  have hattempt : ∀ input, d.attempt input = c.attempt input := by
    intro input
    rcases Contract.eq_or_mem_repricings haddress hsince with rfl | hmem
    · rfl
    · exact Contract.attempt_of_mem_repricings hmem input
  refine ⟨d, (Registry.ofRevision_serves s.revision a d).mpr hd, hd.stands,
    (Contract.name_eq_of_address_eq haddress).symm, fun invocation => ?_, fun hmodexp => ?_⟩
  · have hexecute : ∀ b : Contract, b.operation.execute invocation = b.execute invocation.input :=
      fun _ => rfl
    rw [hexecute, hexecute, Contract.execute_eq, Contract.execute_eq, hattempt]
  · have hquote : ∀ input, d.quote input ≤ c.quote input := by
      intro input
      rcases Contract.eq_or_mem_repricings haddress hsince with rfl | hmem
      · exact UInt64.le_refl _
      · exact Contract.quote_le_of_mem_repricings hmem (hc.stands ▸ hmodexp) input
    refine ⟨hquote, fun call hanswer => ?_⟩
    have hnoWorse := Contract.answer_noWorse (hattempt call.input) (hquote call.input) hanswer
    exact ⟨hnoWorse.not_runsOut, hnoWorse⟩

-- Both rule sets have gaps, and the second one lacks the fork that brought the new price.
theorem pairing_kept_over_gaps :
    let r : Ruleset := ⟨1, fun fork => fork = .byzantium ∨ fork = .prague⟩
    let s : Ruleset := ⟨2, fun fork => fork = .byzantium ∨ fork = .berlin⟩
    (Dispatcher.ofRuleset r).get? .bn254Pairing = some (.bn254Pairing .byzantium) ∧
      (Dispatcher.ofRuleset s).get? .bn254Pairing = some (.bn254Pairing .istanbul) ∧
      ∀ call, ¬ ((Contract.bn254Pairing .byzantium).answer call).RunsOut →
        ((Contract.bn254Pairing .byzantium).answer call).NoWorse
          ((Contract.bn254Pairing .istanbul).answer call) := by
  intro r s
  have hget : (Dispatcher.ofRuleset r).get? .bn254Pairing = some (.bn254Pairing .byzantium) := by
    decide +kernel
  obtain ⟨d, hd, -, -, -, hrest⟩ :=
    upgrade_keeps_contracts r s (by decide) (by decide) (by decide) _ _ hget
  have hget' : (Dispatcher.ofRuleset s).get? .bn254Pairing = some (.bn254Pairing .istanbul) := by
    decide +kernel
  cases hd.symm.trans hget'
  exact ⟨hget, hget', fun call hanswer => ((hrest (by decide)).2 call hanswer).2⟩

end NativeContracts
