import NativeContracts.Ruleset
import Mathlib.Data.List.Basic

namespace NativeContracts

theorem Fork.nodup_chain : chain.Nodup := by decide

-- What is left of the chain from one of its forks on.
theorem Fork.dropWhile_chain {before after : List Fork} {fork : Fork}
    (h : chain = before ++ fork :: after) : chain.dropWhile (· ≠ fork) = fork :: after := by
  have hdistinct := nodup_chain
  rw [h] at hdistinct ⊢
  have hpass : ∀ f ∈ before, decide (f ≠ fork) = true := by
    intro f hf
    exact decide_eq_true ((List.nodup_append.mp hdistinct).2.2 f hf fork List.mem_cons_self)
  rw [List.dropWhile_append_of_pos hpass]
  simp

namespace Ruleset

-- The same rules with a fork and all forks behind it taken back.
def clearFrom (r : Ruleset) (fork : Fork) : Ruleset :=
  { r with active := fun f => if f ∈ Fork.chain.dropWhile (· ≠ fork) then false else r.active f }

variable {r : Ruleset}

theorem active_clearFrom_of_mem {fork f : Fork} (h : f ∈ Fork.chain.dropWhile (· ≠ fork)) :
    (r.clearFrom fork).active f = false :=
  if_pos h

theorem active_clearFrom_of_not_mem {fork f : Fork} (h : f ∉ Fork.chain.dropWhile (· ≠ fork)) :
    (r.clearFrom fork).active f = r.active f :=
  if_neg h

theorem brokenLinkFrom_congr {s : Ruleset} (h : ∀ f, s.active f = r.active f)
    (missing : Option Fork) (forks : List Fork) :
    s.brokenLinkFrom missing forks = r.brokenLinkFrom missing forks := by
  induction forks generalizing missing with
  | nil => cases missing <;> rfl
  | cons fork later ih => cases missing <;> simp only [brokenLinkFrom, h, ih]

-- Behind an inactive fork only the next active one is looked for.
theorem brokenLinkFrom_some (missing : Fork) (forks : List Fork) :
    r.brokenLinkFrom (some missing) forks =
      (forks.find? r.active).map fun fork => ⟨fork, missing⟩ := by
  induction forks with
  | nil => rfl
  | cons fork later ih => cases hactive : r.active fork <;> simp [brokenLinkFrom, hactive, ih]

-- The search passes over active forks and stops at the first inactive one.
theorem brokenLinkFrom_append {before : List Fork} (hbefore : ∀ f ∈ before, r.active f = true)
    (rest : List Fork) :
    r.brokenLinkFrom none (before ++ rest) = r.brokenLinkFrom none rest := by
  induction before with
  | nil => rfl
  | cons fork before ih =>
      have hfork := hbefore fork List.mem_cons_self
      rw [List.cons_append, brokenLinkFrom, if_pos hfork, ih fun f hf => hbefore f (.tail _ hf)]

theorem brokenLinkFrom_cons {missing : Fork} (hmissing : r.active missing = false)
    (later : List Fork) :
    r.brokenLinkFrom none (missing :: later) =
      (later.find? r.active).map fun fork => ⟨fork, missing⟩ := by
  rw [← brokenLinkFrom_some]
  simp [brokenLinkFrom, hmissing]

theorem active_or_exists_missing (r : Ruleset) (forks : List Fork) :
    (∀ f ∈ forks, r.active f = true) ∨
      ∃ before missing later, forks = before ++ missing :: later ∧
        (∀ f ∈ before, r.active f = true) ∧ r.active missing = false := by
  cases hfind : forks.find? fun f => !r.active f with
  | none => exact .inl (by simpa using hfind)
  | some missing =>
      obtain ⟨hmissing, before, later, hsplit, hbefore⟩ := List.find?_eq_some_iff_append.mp hfind
      exact .inr ⟨before, missing, later, hsplit, by simpa using hbefore, by simpa using hmissing⟩

theorem brokenLinkFrom_eq_none_iff (forks : List Fork) :
    r.brokenLinkFrom none forks = none ↔
      ∃ present absent, forks = present ++ absent ∧ (∀ f ∈ present, r.active f = true) ∧
        ∀ f ∈ absent, r.active f = false := by
  constructor
  · intro hnone
    rcases r.active_or_exists_missing forks with
      hall | ⟨before, missing, later, rfl, hbefore, hmissing⟩
    · exact ⟨forks, [], by simp, hall, by simp⟩
    · rw [brokenLinkFrom_append hbefore, brokenLinkFrom_cons hmissing, Option.map_eq_none_iff,
        List.find?_eq_none] at hnone
      refine ⟨before, missing :: later, rfl, hbefore, ?_⟩
      simpa [hmissing] using hnone
  · rintro ⟨present, absent, rfl, hpresent, habsent⟩
    rw [brokenLinkFrom_append hpresent]
    cases absent with
    | nil => rfl
    | cons missing later =>
        have hlater : later.find? r.active = none := by
          rw [List.find?_eq_none]
          exact fun f hf => by simp [habsent f (.tail _ hf)]
        rw [brokenLinkFrom_cons (habsent missing List.mem_cons_self), hlater]
        rfl

theorem brokenLinkFrom_eq_some_iff (forks : List Fork) (link : BrokenLink) :
    r.brokenLinkFrom none forks = some link ↔
      ∃ before between after, forks = before ++ link.missing :: (between ++ link.fork :: after) ∧
        (∀ f ∈ before, r.active f = true) ∧ r.active link.missing = false ∧
        (∀ f ∈ between, r.active f = false) ∧ r.active link.fork = true := by
  constructor
  · intro hsome
    rcases r.active_or_exists_missing forks with
      hall | ⟨before, missing, later, rfl, hbefore, hmissing⟩
    · have hnone := brokenLinkFrom_append hall []
      rw [List.append_nil, hsome] at hnone
      cases hnone
    · rw [brokenLinkFrom_append hbefore, brokenLinkFrom_cons hmissing,
        Option.map_eq_some_iff] at hsome
      obtain ⟨fork, hfind, rfl⟩ := hsome
      obtain ⟨hfork, between, after, rfl, hbetween⟩ := List.find?_eq_some_iff_append.mp hfind
      exact ⟨before, between, after, rfl, hbefore, hmissing, by simpa using hbetween, hfork⟩
  · rintro ⟨before, between, after, rfl, hbefore, hmissing, hbetween, hfork⟩
    have hfind : (between ++ link.fork :: after).find? r.active = some link.fork :=
      List.find?_eq_some_iff_append.mpr ⟨hfork, between, after, rfl, by simpa using hbetween⟩
    rw [brokenLinkFrom_append hbefore, brokenLinkFrom_cons hmissing, hfind]
    rfl

theorem validate_eq_ok_iff : r.validate = .ok () ↔ r.brokenLinkFrom none Fork.chain = none := by
  unfold validate brokenLink?
  cases r.brokenLinkFrom none Fork.chain <;> simp

theorem validate_eq_error_iff (link : BrokenLink) :
    r.validate = .error link ↔ r.brokenLinkFrom none Fork.chain = some link := by
  unfold validate brokenLink?
  cases r.brokenLinkFrom none Fork.chain <;> simp

theorem map_snd_flags (r : Ruleset) : r.flags.map Prod.snd = Fork.chain.map r.active := by
  rw [flags, List.map_map]
  rfl

-- Rules are in order if the active forks are the first ones of the chain.
theorem validate_eq_ok_iff_flags :
    r.validate = .ok () ↔
      ∃ present absent, r.flags.map Prod.snd =
        List.replicate present true ++ List.replicate absent false := by
  rw [validate_eq_ok_iff, brokenLinkFrom_eq_none_iff, map_snd_flags]
  constructor
  · rintro ⟨present, absent, hchain, hpresent, habsent⟩
    refine ⟨present.length, absent.length, ?_⟩
    rw [hchain, List.map_append, List.map_eq_replicate_iff.mpr hpresent,
      List.map_eq_replicate_iff.mpr habsent]
  · rintro ⟨n, m, hflags⟩
    obtain ⟨present, absent, hchain, hpresent, habsent⟩ := List.map_eq_append_iff.mp hflags
    refine ⟨present, absent, hchain, ?_, ?_⟩
    · intro f hf
      exact List.eq_of_mem_replicate (hpresent ▸ List.mem_map_of_mem hf)
    · intro f hf
      exact List.eq_of_mem_replicate (habsent ▸ List.mem_map_of_mem hf)

-- Nothing in front of the reported fork changes, and between the missing one and it nothing is
-- active anyway.
theorem validate_clearFrom {link : BrokenLink} (h : r.validate = .error link) :
    (r.clearFrom link.fork).validate = .ok () := by
  rw [validate_eq_error_iff, brokenLinkFrom_eq_some_iff] at h
  obtain ⟨before, between, after, hchain, hbefore, hmissing, hbetween, -⟩ := h
  have hfront : Fork.chain = (before ++ link.missing :: between) ++ link.fork :: after := by
    simp [hchain]
  have hdrop := Fork.dropWhile_chain hfront
  have hdistinct := Fork.nodup_chain
  rw [hchain] at hdistinct
  rw [validate_eq_ok_iff, brokenLinkFrom_eq_none_iff]
  refine ⟨before, _, hchain, fun f hf => ?_, fun f hf => ?_⟩
  · have hkept : f ∉ link.fork :: after := fun hmem =>
      (List.nodup_append.mp hdistinct).2.2 f hf f (by simp [List.mem_cons.mp hmem]) rfl
    rw [active_clearFrom_of_not_mem (hdrop ▸ hkept), hbefore f hf]
  · by_cases hcleared : f ∈ Fork.chain.dropWhile (· ≠ link.fork)
    · exact active_clearFrom_of_mem hcleared
    · rw [active_clearFrom_of_not_mem hcleared]
      rw [hdrop] at hcleared
      rcases List.mem_cons.mp hf with rfl | hf
      · exact hmissing
      · exact hbetween f ((List.mem_append.mp hf).resolve_right hcleared)

end Ruleset

-- Of a chain with a gap, the report has the first inactive fork and the first active one behind
-- it. The chain up to there is in order.
theorem validation_reports_first_gap (r : Ruleset) :
    (r.validate = .ok () ↔
      ∃ present absent, r.flags.map Prod.snd =
        List.replicate present true ++ List.replicate absent false) ∧
      (∀ link, r.validate = .error link ↔
        ∃ before between after,
          Fork.chain = before ++ link.missing :: (between ++ link.fork :: after) ∧
            (∀ f ∈ before, r.active f = true) ∧ r.active link.missing = false ∧
            (∀ f ∈ between, r.active f = false) ∧ r.active link.fork = true) ∧
      (∀ link, r.validate = .error link → (r.clearFrom link.fork).validate = .ok ()) ∧
      ∀ chainId, (r.withChainId chainId).validate = r.validate := by
  refine ⟨Ruleset.validate_eq_ok_iff_flags, fun link => ?_, fun link => Ruleset.validate_clearFrom,
    fun chainId => ?_⟩
  · rw [Ruleset.validate_eq_error_iff, Ruleset.brokenLinkFrom_eq_some_iff]
  · have hsame := Ruleset.brokenLinkFrom_congr (s := r.withChainId chainId) (r := r)
      (fun _ => rfl) none Fork.chain
    simp only [Ruleset.validate, Ruleset.brokenLink?, hsame]

-- Two gaps, and the first one two forks long.
theorem second_gap_not_reported :
    let r : Ruleset := { active := fun f => f ∈ [.homestead, .eip150, .byzantium, .berlin] }
    r.validate = .error ⟨.byzantium, .eip155⟩ ∧
      (r.clearFrom .byzantium).flags.map Prod.snd =
        List.replicate 2 true ++ List.replicate 12 false ∧
      (r.clearFrom .byzantium).validate = .ok () := by
  intro r
  have hreport : r.validate = .error ⟨.byzantium, .eip155⟩ := by decide
  exact ⟨hreport, by decide, (validation_reports_first_gap r).2.2.1 _ hreport⟩

end NativeContracts
