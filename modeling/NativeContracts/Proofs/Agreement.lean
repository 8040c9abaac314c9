import NativeContracts.Proofs.Session
import Mathlib.Data.List.Forall2

namespace NativeContracts

-- The forks that brought contracts are the same; nothing else has to be.
structure Ruleset.Agrees (r s : Ruleset) : Prop where
  byzantium : r.active .byzantium = s.active .byzantium
  istanbul : r.active .istanbul = s.active .istanbul
  berlin : r.active .berlin = s.active .berlin

namespace Ruleset

@[refl] theorem Agrees.refl (r : Ruleset) : r.Agrees r := ⟨rfl, rfl, rfl⟩

theorem Agrees.revision_eq {r s : Ruleset} (h : r.Agrees s) : r.revision = s.revision := by
  simp only [revision, h.byzantium, h.istanbul, h.berlin]

theorem Agrees.withChainId {r s : Ruleset} (h : r.Agrees s) (first second : UInt64) :
    (r.withChainId first).Agrees (s.withChainId second) :=
  ⟨h.byzantium, h.istanbul, h.berlin⟩

end Ruleset

namespace Dispatcher

-- No listing, no lookup and no run tells one from the other.
structure Equivalent (d e : Dispatcher) : Prop where
  revision : d.revision = e.revision
  registry : d.registry = e.registry
  warmAddresses : d.warmAddresses = e.warmAddresses
  contains : ∀ a, d.contains a = e.contains a
  get? : ∀ a, d.get? a = e.get? a
  runAt : ∀ a call, d.runAt a call = e.runAt a call

-- Made from rule sets that agree.
def Alike (d e : Dispatcher) : Prop :=
  ∃ r s : Ruleset, r.Agrees s ∧ d = .ofRuleset r ∧ e = .ofRuleset s

theorem alike_ofRuleset {r s : Ruleset} (h : r.Agrees s) : (ofRuleset r).Alike (ofRuleset s) :=
  ⟨r, s, h, rfl, rfl⟩

-- What is left of two such rule sets is the same.
theorem Alike.eq {d e : Dispatcher} (h : d.Alike e) : e = { d with ruleset := e.ruleset } := by
  obtain ⟨r, s, hagrees, rfl, rfl⟩ := h
  simp only [ofRuleset, hagrees.revision_eq]

-- The rules are kept to be shown: nothing that a caller asks for reads them.
theorem equivalent_withRuleset (d : Dispatcher) (ruleset : Ruleset) :
    d.Equivalent { d with ruleset } :=
  ⟨rfl, rfl, rfl, fun _ => rfl, fun _ => rfl, fun _ _ => rfl⟩

theorem Alike.equivalent {d e : Dispatcher} (h : d.Alike e) : d.Equivalent e := by
  rw [h.eq]
  exact d.equivalent_withRuleset _

theorem Alike.rechain {d e : Dispatcher} (h : d.Alike e) (first second : UInt64) :
    Alike (.ofRuleset (d.ruleset.withChainId first))
      (.ofRuleset (e.ruleset.withChainId second)) := by
  obtain ⟨r, s, hagrees, rfl, rfl⟩ := h
  exact alike_ofRuleset (hagrees.withChainId first second)

end Dispatcher

namespace Shelf

variable {α : Type} {R : α → α → Prop} {a b : Shelf α}

-- The same names, with related values under them.
structure Related (R : α → α → Prop) (a b : Shelf α) : Prop where
  names : a.entries.map Prod.fst = b.entries.map Prod.fst
  get? : ∀ name, Option.Rel R (a.get? name) (b.get? name)

theorem Related.size_eq (h : a.Related R b) : a.size = b.size := by
  simpa [size] using congrArg List.length h.names

theorem names_put (shelf : Shelf α) (name : String) (value : α) :
    (shelf.put name value).entries.map Prod.fst =
      name :: (shelf.entries.map Prod.fst).filter fun other => other ≠ name := by
  simp [put, List.filter_map, Function.comp_def]

theorem Related.put (h : a.Related R b) {x y : α} (hxy : R x y) (name : String) :
    (a.put name x).Related R (b.put name y) where
  names := by rw [names_put, names_put, h.names]
  get? other := by
    by_cases hother : other = name
    · subst hother
      rw [get?_put_self, get?_put_self]
      exact .some hxy
    · rw [get?_put_of_ne a x hother, get?_put_of_ne b y hother]
      exact h.get? other

end Shelf

-- The same steps may be taken, but for the rules and chain ids of new dispatchers.
inductive Step.Alike : Step → Step → Prop
  | same (step : Step) : Alike step step
  | adopt {r s : Ruleset} (h : r.Agrees s) : Alike (.adopt r) (.adopt s)
  | rechain (first second : UInt64) : Alike (.rechain first) (.rechain second)

-- A dispatcher in an answer, and what an observer is told when it is made, may be different.
inductive Reply.Alike : Reply × List Event → Reply × List Event → Prop
  | same (answer : Reply × List Event) : Alike answer answer
  | made {d e : Dispatcher} (h : d.Alike e) :
      Alike (.dispatcher d, d.announcement) (.dispatcher e, e.announcement)
  | loaded {d e : Dispatcher} (h : d.Alike e) : Alike (.dispatcher d, []) (.dispatcher e, [])

namespace Session

-- The answers to a row of steps, and what an observer is told at each of them.
def transcript : Session → List Step → List (Reply × List Event)
  | _, [] => []
  | s, step :: rest => (s.step step).2 :: (s.step step).1.transcript rest

structure Alike (s t : Session) : Prop where
  dispatcher : s.dispatcher.Alike t.dispatcher
  saved : s.saved.Related Dispatcher.Alike t.saved
  probes : s.probes = t.probes
  previous : s.previous = t.previous
  balance : s.balance = t.balance

-- What a step leaves, and what it answers.
def LandsAlike (x y : Session × Reply × List Event) : Prop := x.1.Alike y.1 ∧ Reply.Alike x.2 y.2

namespace Alike

variable {s t : Session}

theorem adopt (h : s.Alike t) {q r : Ruleset}
    (hmade : (Dispatcher.ofRuleset q).Alike (.ofRuleset r)) :
    LandsAlike (s.adopt q) (t.adopt r) :=
  ⟨{ h with dispatcher := hmade }, .made hmade⟩

theorem save (h : s.Alike t) (name : String) :
    LandsAlike (s.step (.save name)) (t.step (.save name)) := by
  have hsaved := h.saved.put h.dispatcher name
  refine ⟨{ h with saved := hsaved }, ?_⟩
  simp only [step, hsaved.size_eq]
  exact .same _

theorem load (h : s.Alike t) (name : String) :
    LandsAlike (s.step (.load name)) (t.step (.load name)) := by
  have hget := h.saved.get? name
  simp only [step]
  generalize s.saved.get? name = mine, t.saved.get? name = other at hget ⊢
  cases hget with
  | none => exact ⟨h, .same _⟩
  | some hfound => exact ⟨{ h with dispatcher := hfound }, .loaded hfound⟩

theorem keepOutput (h : s.Alike t) (output : Option Bytes) :
    (s.keepOutput output).Alike (t.keepOutput output) := by
  cases output with
  | none => exact h
  | some output => exact { h with previous := rfl }

theorem settle {ε : Type} (h : s.Alike t) (result : CallResult ε) :
    (s.settle result).Alike (t.settle result) :=
  { h.keepOutput _ with balance := rfl }

theorem withProbes (h : s.Alike t) (probes : Shelf Probe) :
    Alike { s with probes } { t with probes } :=
  { h with probes := rfl }

theorem runContract (h : s.Alike t) (c : Contract) (call : Call) :
    LandsAlike (s.runContract c call) (t.runContract c call) :=
  ⟨h.settle _, .same _⟩

-- What one step keeps.
theorem step (h : s.Alike t) {first second : Step} (hsteps : first.Alike second) :
    LandsAlike (s.step first) (t.step second) := by
  cases hsteps with
  | adopt hagrees => exact h.adopt (Dispatcher.alike_ofRuleset hagrees)
  | rechain one other => exact h.adopt (h.dispatcher.rechain one other)
  | same =>
      cases first with
      | adopt r => exact h.adopt (Dispatcher.alike_ofRuleset (.refl r))
      | rechain chainId => exact h.adopt (h.dispatcher.rechain chainId chainId)
      | save name => exact h.save name
      | load name => exact h.load name
      | fund gas => exact ⟨{ h with balance := rfl }, .same _⟩
      | place name probe =>
          simp only [Session.step, h.probes]
          exact ⟨h.withProbes _, .same _⟩
      | look a =>
          simp only [Session.step, h.dispatcher.equivalent.get? a]
          exact ⟨h, .same _⟩
      | priceProbe name =>
          simp only [Session.step, h.probes]
          cases t.probes.get? name with
          | none => exact ⟨h, .same _⟩
          | some probe => exact ⟨h, .same _⟩
      | priceContract c input => exact ⟨h, .same _⟩
      | execute name invocation =>
          simp only [Session.step, h.probes]
          cases t.probes.get? name with
          | none => exact ⟨h, .same _⟩
          | some probe => exact ⟨(h.withProbes _).keepOutput _, .same _⟩
      | runProbe name call =>
          simp only [Session.step, h.probes]
          cases t.probes.get? name with
          | none => exact ⟨h, .same _⟩
          | some probe => exact ⟨(h.withProbes _).settle _, .same _⟩
      | runContract c call => exact h.runContract c call
      | runAddress a call =>
          simp only [Session.step, h.dispatcher.equivalent.get? a]
          cases t.dispatcher.get? a with
          | none => exact ⟨h, .same _⟩
          | some c => exact h.runContract c call

theorem transcript {first second : List Step} (h : s.Alike t)
    (hsteps : List.Forall₂ Step.Alike first second) :
    List.Forall₂ Reply.Alike (s.transcript first) (t.transcript second) := by
  induction hsteps generalizing s t with
  | nil => exact .nil
  | cons hstep _ ih =>
      obtain ⟨hleft, hanswer⟩ := h.step hstep
      exact .cons hanswer (ih hleft)

end Alike

theorem alike_start : start.Alike start where
  dispatcher := Dispatcher.alike_ofRuleset (.refl .empty)
  saved := ⟨rfl, fun _ => .none⟩
  probes := rfl
  previous := rfl
  balance := rfl

end Session

-- Neither the chain id nor another flag, nor whether the rules are consistent, gets as far as a
-- call: of a whole run of calls, only the rules shown and the announcements can be different.
theorem irrelevant_rules_do_not_reach_dispatch {r s : Ruleset} (h : r.Agrees s) :
    let d := Dispatcher.ofRuleset r
    d.Equivalent (.ofRuleset s) ∧
      Dispatcher.ofRuleset s = { d with ruleset := s } ∧
      (∀ chainId, d.Equivalent (.ofRuleset (d.ruleset.withChainId chainId))) ∧
      ∀ before later, List.Forall₂ Reply.Alike
        (Session.start.transcript (before ++ .adopt r :: later))
        (Session.start.transcript (before ++ .adopt s :: later)) := by
  intro d
  have halike : d.Alike (.ofRuleset s) := Dispatcher.alike_ofRuleset h
  refine ⟨halike.equivalent, halike.eq, ?_, ?_⟩
  · intro chainId
    have hagrees : r.Agrees (r.withChainId chainId) := ⟨rfl, rfl, rfl⟩
    exact (Dispatcher.alike_ofRuleset hagrees).equivalent
  · intro before later
    have hsame (steps : List Step) : List.Forall₂ Step.Alike steps steps :=
      List.forall₂_same.mpr fun step _ => .same step
    exact Session.alike_start.transcript
      (List.rel_append (hsame before) (.cons (.adopt h) (hsame later)))

-- Consistent rules, and beside them rules of another chain with gaps and a fork too new to matter.
theorem gapped_rules_dispatch_alike :
    let r := (Ruleset.ofRevision .istanbul).withChainId 1
    let s : Ruleset := ⟨10, fun fork => fork ∈ [.byzantium, .istanbul, .prague]⟩
    let call : Call := { input := [7], gasLimit := 20 }
    r.Agrees s ∧ r.validate = .ok () ∧ s.validate = .error ⟨.byzantium, .homestead⟩ ∧
      (Dispatcher.ofRuleset s).runAt Contract.identity.address call =
        some (.ok ⟨[7], 2⟩, .executed 18 2) := by
  intro r s call
  have hagrees : r.Agrees s := ⟨rfl, rfl, rfl⟩
  have hequivalent := (irrelevant_rules_do_not_reach_dispatch hagrees).1
  refine ⟨hagrees, by decide, by decide, ?_⟩
  rw [← hequivalent.runAt]
  decide +kernel

end NativeContracts
