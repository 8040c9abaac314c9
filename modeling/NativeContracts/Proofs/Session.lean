import NativeContracts.Proofs.Limit
import NativeContracts.Session

namespace NativeContracts

namespace Probe

theorem execute_eq (probe : Probe) (invocation : Invocation) :
    probe.execute invocation = (probe.answer, probe.record invocation) := rfl

theorem run_runsOut_iff (probe : Probe) (call : Call) :
    (probe.run call).1.1.RunsOut ↔ call.gasLimit < probe.price :=
  probe.operation.serve_runsOut_iff call probe

theorem run_of_lt {probe : Probe} {call : Call} (h : call.gasLimit < probe.price) :
    (probe.run call).2 = probe :=
  congrArg Prod.snd (probe.operation.serve_of_lt call probe h)

theorem run_of_le {probe : Probe} {call : Call} (h : probe.price ≤ call.gasLimit) :
    (probe.run call).2 = probe.record call.invocation :=
  congrArg Prod.snd (probe.operation.serve_of_le call probe h)

theorem foldl_record (probe : Probe) (reached : List Invocation) :
    reached.foldl record probe =
      { probe with
        calls := probe.calls + reached.length
        lastCall := reached.getLast?.or probe.lastCall } := by
  induction reached generalizing probe with
  | nil => rfl
  | cons invocation rest ih =>
      rw [List.foldl_cons, ih]
      simp only [record, List.length_cons, List.getLast?_cons, Option.some_or, Option.or_some]
      congr 1
      omega

end Probe

namespace Step

-- The probe that a step places or calls.
def probe? : Step → Option String
  | .place name _ | .execute name _ | .runProbe name _ => some name
  | _ => none

def executes (name : String) : Step → Bool
  | .execute other _ => other = name
  | _ => false

def pays (name : String) (price : Gas) : Step → Bool
  | .runProbe other call => other = name ∧ price ≤ call.gasLimit
  | _ => false

-- What a probe gets to see of a step.
def reaching (name : String) (price : Gas) : Step → Option Invocation
  | .execute other invocation => if other = name then some invocation else none
  | .runProbe other call =>
    if other = name ∧ price ≤ call.gasLimit then
      some { input := call.input, caller := call.caller, value := call.value,
             readOnly := call.isStatic }
    else none
  | _ => none

theorem length_filterMap_reaching (name : String) (price : Gas) (steps : List Step) :
    (steps.filterMap (reaching name price)).length =
      steps.countP (executes name) + steps.countP (pays name price) := by
  induction steps with
  | nil => rfl
  | cons step rest ih =>
      rw [List.countP_cons, List.countP_cons]
      cases step with
      | execute other invocation =>
          by_cases h : other = name
          · have hreach : reaching name price (.execute other invocation) = some invocation :=
              if_pos h
            have hexecutes : executes name (.execute other invocation) := decide_eq_true h
            rw [List.filterMap_cons_some hreach, List.length_cons, ih, if_pos hexecutes]
            simp only [pays, Bool.false_eq_true, if_false]
            omega
          · simp [reaching, executes, pays, h, ih]
      | runProbe other call =>
          by_cases h : other = name ∧ price ≤ call.gasLimit
          · have hreach : reaching name price (.runProbe other call) = some call.invocation :=
              if_pos h
            have hpays : pays name price (.runProbe other call) := decide_eq_true h
            rw [List.filterMap_cons_some hreach, List.length_cons, ih, if_pos hpays]
            simp only [executes, Bool.false_eq_true, if_false]
            omega
          · simp [reaching, executes, pays, h, ih]
      | _ => exact ih

end Step

namespace Session

def after (s : Session) (steps : List Step) : Session :=
  steps.foldl (fun s step => (s.step step).1) s

@[simp] theorem probes_keepOutput (s : Session) (output : Option Bytes) :
    (s.keepOutput output).probes = s.probes := by
  cases output <;> rfl

@[simp] theorem probes_settle {ε : Type} (s : Session) (result : CallResult ε) :
    (s.settle result).probes = s.probes :=
  s.probes_keepOutput _

@[simp] theorem probes_runContract (s : Session) (c : Contract) (call : Call) :
    (s.runContract c call).1.probes = s.probes :=
  s.probes_settle _

theorem get?_step_of_ne (s : Session) {step : Step} {name : String}
    (h : step.probe? ≠ some name) :
    (s.step step).1.probes.get? name = s.probes.get? name := by
  have hname : ∀ other, step.probe? = some other → name ≠ other := by
    rintro other hother rfl
    exact h hother
  cases step with
  | place other probe => exact Shelf.get?_put_of_ne _ _ (hname other rfl)
  | execute other invocation =>
      simp only [step]
      cases s.probes.get? other with
      | none => rfl
      | some probe =>
          rw [probes_keepOutput]
          exact Shelf.get?_put_of_ne _ _ (hname other rfl)
  | runProbe other call =>
      simp only [step]
      cases s.probes.get? other with
      | none => rfl
      | some probe =>
          rw [probes_settle]
          exact Shelf.get?_put_of_ne _ _ (hname other rfl)
  | load saved =>
      simp only [step]
      cases s.saved.get? saved <;> rfl
  | priceProbe other =>
      simp only [step]
      cases s.probes.get? other <;> rfl
  | runContract c call => rw [step, probes_runContract]
  | runAddress a call =>
      simp only [step]
      cases s.dispatcher.get? a with
      | none => rfl
      | some c => rw [probes_runContract]
  | _ => rfl

theorem get?_step_execute {s : Session} {name : String} {probe : Probe}
    (hget : s.probes.get? name = some probe) (invocation : Invocation) :
    (s.step (.execute name invocation)).1.probes.get? name = some (probe.record invocation) := by
  simp only [step, hget, probes_keepOutput, Shelf.get?_put_self, Probe.execute_eq]

theorem get?_step_runProbe {s : Session} {name : String} {probe : Probe}
    (hget : s.probes.get? name = some probe) (call : Call) :
    (s.step (.runProbe name call)).1.probes.get? name = some (probe.run call).2 := by
  simp only [step, hget, probes_settle, Shelf.get?_put_self]

theorem get?_step_of_lt {s : Session} {name : String} {probe : Probe} {call : Call}
    (hget : s.probes.get? name = some probe) (h : call.gasLimit < probe.price) (other : String) :
    (s.step (.runProbe name call)).1.probes.get? other = s.probes.get? other := by
  by_cases hother : name = other
  · subst hother
    rw [get?_step_runProbe hget, Probe.run_of_lt h, hget]
  · apply get?_step_of_ne
    intro hsame
    exact hother (Option.some.inj hsame)

-- Short of its replacement, a probe takes from a step just the call that reaches it.
theorem get?_step {s : Session} {name : String} {probe : Probe}
    (hget : s.probes.get? name = some probe) {step : Step}
    (hkept : ∀ other, step ≠ .place name other) :
    (s.step step).1.probes.get? name =
      some ((step.reaching name probe.price).elim probe probe.record) := by
  by_cases hname : step.probe? = some name
  · cases step with
    | place other new =>
        cases hname
        exact absurd rfl (hkept new)
    | execute other invocation =>
        cases hname
        rw [get?_step_execute hget, Step.reaching, if_pos rfl]
        rfl
    | runProbe other call =>
        cases hname
        rw [get?_step_runProbe hget]
        by_cases hpaid : probe.price ≤ call.gasLimit
        · rw [Probe.run_of_le hpaid, Step.reaching, if_pos ⟨rfl, hpaid⟩]
          rfl
        · rw [Probe.run_of_lt (UInt64.not_le.mp hpaid), Step.reaching,
            if_neg fun h => hpaid h.2]
          rfl
    | _ => cases hname
  · have hmissed : step.reaching name probe.price = none := by
      cases step with
      | execute other invocation => exact if_neg fun h => hname (congrArg some h)
      | runProbe other call => exact if_neg fun h => hname (congrArg some h.1)
      | _ => rfl
    rw [get?_step_of_ne s hname, hget, hmissed]
    rfl

-- A probe keeps its price, so what reaches it can be read off the steps before they are taken.
theorem get?_after {s : Session} {name : String} {probe : Probe} {price : Gas}
    (hget : s.probes.get? name = some probe) (hprice : probe.price = price) {steps : List Step}
    (hkept : ∀ other, Step.place name other ∉ steps) :
    (s.after steps).probes.get? name =
      some ((steps.filterMap (Step.reaching name price)).foldl Probe.record probe) := by
  induction steps generalizing s probe with
  | nil => exact hget
  | cons step rest ih =>
      have hrest : ∀ other, Step.place name other ∉ rest :=
        fun other hmem => hkept other (List.mem_cons_of_mem _ hmem)
      have hstep := get?_step hget fun other heq => hkept other (heq ▸ List.mem_cons_self)
      rw [hprice] at hstep
      cases hreach : step.reaching name price with
      | none =>
          rw [List.filterMap_cons_none hreach]
          rw [hreach] at hstep
          exact ih hstep hprice hrest
      | some invocation =>
          rw [List.filterMap_cons_some hreach]
          rw [hreach] at hstep
          exact ih hstep hprice hrest

end Session

-- The dispatcher in force, other probes and built-in contracts may come and go among the steps.
theorem probe_remembers_what_was_paid (s : Session) (steps : List Step) (name : String)
    (price : Gas) (answer : Except String Bytes)
    (hfresh : s.probes.get? name = some { price, answer })
    (hkept : ∀ other, Step.place name other ∉ steps) :
    let t := s.after steps
    let reached := steps.filterMap (Step.reaching name price)
    reached.length = steps.countP (Step.executes name) + steps.countP (Step.pays name price) ∧
      t.probes.get? name =
        some { price, answer, calls := reached.length, lastCall := reached.getLast? } ∧
      (∀ other probe call, t.probes.get? other = some probe → (probe.run call).1.1.RunsOut →
        ∀ any, (t.step (.runProbe other call)).1.probes.get? any = t.probes.get? any) ∧
      ∀ step, step.probe? ≠ some name →
        (t.step step).1.probes.get? name = t.probes.get? name := by
  intro t reached
  refine ⟨Step.length_filterMap_reaching name price steps, ?_, ?_, ?_⟩
  · rw [Session.get?_after hfresh rfl hkept, Probe.foldl_record]
    simp only [Nat.zero_add, Option.or_none]
    rfl
  · intro other probe call hget hout any
    exact Session.get?_step_of_lt hget ((probe.run_runsOut_iff call).mp hout) any
  · intro step hother
    exact t.get?_step_of_ne hother

-- Two probes, of which one fails; the dispatcher changes on the way, and the last run is refused.
theorem failing_probe_remembers :
    let s := Session.start.after
      [.place "a" { price := 10, answer := .error "boom" },
       .place "b" { price := 0, answer := .ok [7] }]
    let steps : List Step :=
      [.runProbe "a" { gasLimit := 9 }, .execute "a" { input := [1] }, .runProbe "b" {},
       .adopt (.ofRevision .berlin), .runProbe "a" { input := [2], gasLimit := 10, isStatic := true },
       .execute "b" {}, .runProbe "a" { input := [3], gasLimit := 9 }]
    s.probes.get? "a" = some { price := 10, answer := .error "boom" } ∧
      (∀ other, Step.place "a" other ∉ steps) ∧
      (s.after steps).probes.get? "a" =
        some { price := 10, answer := .error "boom", calls := 2,
               lastCall := some { input := [2], readOnly := true } } := by
  intro s steps
  have hkept : ∀ other, Step.place "a" other ∉ steps := by
    intro other hmem
    simp [steps] at hmem
  exact ⟨rfl, hkept, (probe_remembers_what_was_paid s steps "a" 10 (.error "boom") rfl hkept).2.1⟩

end NativeContracts
