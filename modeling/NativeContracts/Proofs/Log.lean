import NativeContracts.Proofs.Chain
import Mathlib.Data.List.Forall2

namespace NativeContracts

variable {σ : Type}

-- Whence a dispatcher has its rules: they are given, or those of a revision, or there are none.
inductive Origin
  | given (ruleset : Ruleset)
  | ofRevision (revision : Revision)
  | unspecified

def Origin.ruleset : Origin → Ruleset
  | given ruleset => ruleset
  | ofRevision revision => .ofRevision revision
  | unspecified => .empty

-- A program makes dispatchers, copies them and runs operations.
inductive Act (σ : Type)
  | make (origin : Origin)
  | copy (place : Nat)
  | run (r : Request σ)

-- What the program gets back.
inductive Outcome
  | made (d : Dispatcher)
  | copied (d : Option Dispatcher)
  | ran {ε : Type} (result : CallResult ε)

-- The dispatchers so far, the world of the operations, and what an observer has been told.
structure Scene (σ : Type) where
  dispatchers : List Dispatcher
  world : σ
  log : List Event

namespace Scene

def step (s : Scene σ) : Act σ → Scene σ × Outcome
  | .make origin =>
    let d := Dispatcher.ofRuleset origin.ruleset
    ({ s with dispatchers := s.dispatchers ++ [d], log := s.log ++ d.announcement }, .made d)
  | .copy place =>
    let found := s.dispatchers[place]?
    ({ s with dispatchers := s.dispatchers ++ found.toList }, .copied found)
  | .run r =>
    let ((result, event), world) := (r.operation.run r.call).run s.world
    ({ s with world, log := s.log ++ [event] }, .ran result)

def after (s : Scene σ) (acts : List (Act σ)) : Scene σ :=
  acts.foldl (fun s act => (s.step act).1) s

-- The acts with what each of them gave.
def history : Scene σ → List (Act σ) → List (Act σ × Outcome)
  | _, [] => []
  | s, act :: rest => (act, (s.step act).2) :: (s.step act).1.history rest

end Scene

namespace Event

-- What an observer sees of an event.
structure Reads (event : Event) (level message : String) (fields : List (String × String)) :
    Prop where
  level : event.level = level
  message : event.message = message
  fields : event.fields = fields

-- A dispatcher has got its contracts, and this is how many.
def Resolves (event : Event) (d : Dispatcher) : Prop :=
  event.Reads "DEBUG" "Resolved precompile table"
    [("spec", d.revision.name), ("chain_id", toString d.ruleset.chainId.toNat),
     ("count", toString d.warmAddresses.length)]

def Warns (event : Event) (ruleset : Ruleset) (link : BrokenLink) : Prop :=
  event.Reads "WARN" "Inconsistent rule set"
    [("rules", ruleset.logText), ("err", link.message)]

-- The one event of a run: which of the three it is depends on the result, and its numbers are
-- those of the result.
structure Settles (event : Event) (r : Request σ) (result : CallResult r.ε) : Prop where
  level : event.level = "TRACE"
  outOfGas : event.message = "Precompile out of gas" ↔ result.RunsOut
  executed : event.message = "Precompile executed" ↔ ∃ output, result = .ok output
  failed : event.message = "Precompile failed" ↔
    ∃ error remaining, result = .error (.execution error remaining)
  refused : ∀ required supplied, result = .error (.outOfGas required supplied) →
    supplied < required ∧ supplied = r.call.gasLimit ∧
      event.fields =
        [("required", toString required.toNat), ("supplied", toString supplied.toNat)]
  paid : ¬ result.RunsOut →
    r.required.toNat + (CallResult.remaining result).toNat = r.call.gasLimit.toNat ∧
      event.fields =
        [("required", toString r.required.toNat),
         ("remaining_gas", toString (CallResult.remaining result).toNat)]

theorem settles_outOfGas {r : Request σ} (h : r.call.gasLimit < r.required) :
    (outOfGas r.required r.call.gasLimit).Settles r
      (.error (.outOfGas r.required r.call.gasLimit)) where
  level := rfl
  outOfGas := iff_of_true rfl ⟨_, _, rfl⟩
  executed := iff_of_false (by simp [message]) nofun
  failed := iff_of_false (by simp [message]) nofun
  refused required supplied hresult := by
    cases hresult
    exact ⟨h, rfl, rfl⟩
  paid hpaid := absurd ⟨_, _, rfl⟩ hpaid

theorem settles_settle {r : Request σ} (h : r.required ≤ r.call.gasLimit)
    (outcome : Except r.ε Bytes) :
    let settled := Operation.settle r.required (r.call.gasLimit - r.required) outcome
    settled.2.Settles r settled.1 := by
  have hsum : r.required.toNat + (r.call.gasLimit - r.required).toNat = r.call.gasLimit.toNat := by
    rw [Nat.add_comm]
    exact Gas.toNat_sub_add h
  cases outcome with
  | ok output => exact {
      level := rfl
      outOfGas := iff_of_false (by simp [Operation.settle, message]) nofun
      executed := iff_of_true rfl ⟨_, rfl⟩
      failed := iff_of_false (by simp [Operation.settle, message]) nofun
      refused := nofun
      paid := fun _ => ⟨hsum, rfl⟩ }
  | error error => exact {
      level := rfl
      outOfGas := iff_of_false (by simp [Operation.settle, message]) nofun
      executed := iff_of_false (by simp [Operation.settle, message]) nofun
      failed := iff_of_true rfl ⟨_, _, rfl⟩
      refused := nofun
      paid := fun _ => ⟨hsum, rfl⟩ }

theorem settles_run (r : Request σ) (world : σ) :
    let told := ((r.operation.run r.call).run world).1
    told.2.Settles r told.1 := by
  by_cases h : r.call.gasLimit < r.required
  · rw [Operation.run_of_lt r.operation r.call h]
    exact settles_outOfGas h
  · rw [Operation.run_of_le r.operation r.call (UInt64.not_lt.mp h)]
    exact settles_settle (UInt64.not_lt.mp h) _

end Event

-- What an observer must be told of an act that had an outcome.
inductive Tells : Act σ × Outcome → List Event → Prop
  | consistent {origin : Origin} {d : Dispatcher} {resolved : Event}
      (hruleset : d.ruleset = origin.ruleset) (hvalid : origin.ruleset.validate = .ok ())
      (hresolved : resolved.Resolves d) : Tells (.make origin, .made d) [resolved]
  | inconsistent {origin : Origin} {d : Dispatcher} {warning resolved : Event} {link : BrokenLink}
      (hruleset : d.ruleset = origin.ruleset) (hbroken : origin.ruleset.validate = .error link)
      (hwarning : warning.Warns origin.ruleset link) (hresolved : resolved.Resolves d) :
      Tells (.make origin, .made d) [warning, resolved]
  | copied {place : Nat} {found : Option Dispatcher} : Tells (.copy place, .copied found) []
  | ran {r : Request σ} {result : CallResult r.ε} {event : Event}
      (hsettles : event.Settles r result) : Tells (.run r, .ran result) [event]

namespace Scene

theorem tells_announcement (origin : Origin) :
    Tells (σ := σ) (.make origin, .made (.ofRuleset origin.ruleset))
      (Dispatcher.ofRuleset origin.ruleset).announcement := by
  unfold Dispatcher.announcement
  cases hvalidate : (Dispatcher.ofRuleset origin.ruleset).ruleset.validate with
  | ok => exact .consistent rfl hvalidate ⟨rfl, rfl, rfl⟩
  | error link => exact .inconsistent rfl hvalidate ⟨rfl, rfl, rfl⟩ ⟨rfl, rfl, rfl⟩

-- An act adds to the log, and takes nothing back.
theorem log_step (s : Scene σ) (act : Act σ) :
    ∃ events, (s.step act).1.log = s.log ++ events ∧ Tells (act, (s.step act).2) events := by
  cases act with
  | make origin => exact ⟨_, rfl, tells_announcement origin⟩
  | copy place => exact ⟨[], (List.append_nil _).symm, .copied⟩
  | run r => exact ⟨_, rfl, .ran (Event.settles_run r s.world)⟩

end Scene

-- The log is what the acts had to tell, one after the other, and nothing besides. No dispatcher
-- takes part in a run, so an operation may be run whether or not any dispatcher has it.
theorem log_tells_what_happened (start : Scene σ) (acts : List (Act σ)) :
    (start.history acts).map Prod.fst = acts ∧
      ∃ parts : List (List Event), (start.after acts).log = start.log ++ parts.flatten ∧
        List.Forall₂ Tells (start.history acts) parts := by
  induction acts generalizing start with
  | nil => exact ⟨rfl, [], (List.append_nil _).symm, .nil⟩
  | cons act rest ih =>
      obtain ⟨events, hlog, htells⟩ := start.log_step act
      obtain ⟨hacts, parts, hrest, hparts⟩ := ih (start.step act).1
      refine ⟨congrArg (act :: ·) hacts, events :: parts, ?_, .cons htells hparts⟩
      rw [List.flatten_cons, ← List.append_assoc, ← hlog]
      exact hrest

-- Istanbul without the forks before it, a copy, and a call that is short of one unit of gas.
example :
    let rules : Ruleset := ⟨1, fun fork => fork = .istanbul⟩
    let acts : List (Act Unit) :=
      [.make (.given rules), .copy 0, .run (.ofContract .ecRecover { gasLimit := 2999 })]
    (Scene.after ⟨[], (), []⟩ acts).log =
      [.brokenChain rules ⟨.istanbul, .homestead⟩, .resolved .istanbul 1 9,
       .outOfGas 3000 2999] := by
  decide +kernel

end NativeContracts
