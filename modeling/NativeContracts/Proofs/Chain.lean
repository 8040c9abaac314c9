import NativeContracts.Probe
import NativeContracts.Proofs.Limit

namespace NativeContracts

variable {σ : Type}

-- A call of any operation on a shared world. Its limit is what is left when its turn comes.
structure Request (σ : Type) where
  {ε : Type}
  operation : Operation (StateM σ) ε
  call : Call

namespace Request

def required (r : Request σ) : Gas := r.operation.price r.call.input

def ofContract (c : Contract) (call : Call) : Request σ := ⟨c.operation.inWorld, call⟩

end Request

-- What stands between two runs.
structure Frame (σ : Type) where
  world : σ
  gas : Gas

namespace Frame

def served (f : Frame σ) (r : Request σ) : CallResult r.ε × σ :=
  r.operation.serve { r.call with gasLimit := f.gas } f.world

def result (f : Frame σ) (r : Request σ) : CallResult r.ε := (f.served r).1

def next (f : Frame σ) (r : Request σ) : Frame σ :=
  ⟨(f.served r).2, CallResult.remaining (f.result r)⟩

def after (f : Frame σ) (runs : List (Request σ)) : Frame σ := runs.foldl next f

-- Some run has run out of gas.
def RanOut : Frame σ → List (Request σ) → Prop
  | _, [] => False
  | f, r :: rest => (f.result r).RunsOut ∨ (f.next r).RanOut rest

-- The result and the world are those of one execution, whatever it may do.
def Executes (f : Frame σ) (r : Request σ) : Prop :=
  let executed := (r.operation.execute r.call.invocation).run f.world
  f.result r = .ofOutcome (f.next r).gas executed.1 ∧ (f.next r).world = executed.2

def Refuses (f : Frame σ) (r : Request σ) : Prop :=
  f.result r = .error (.outOfGas r.required f.gas) ∧ (f.next r).world = f.world

theorem served_ofContract (f : Frame σ) (c : Contract) (call : Call) :
    f.served (.ofContract c call) = (c.answer { call with gasLimit := f.gas }, f.world) :=
  c.operation.serve_inWorld { call with gasLimit := f.gas } f.world

theorem next_of_lt {f : Frame σ} {r : Request σ} (h : f.gas < r.required) :
    f.Refuses r ∧ (f.next r).gas = 0 := by
  have hserved : f.served r = (.error (.outOfGas r.required f.gas), f.world) :=
    r.operation.serve_of_lt { r.call with gasLimit := f.gas } f.world h
  refine ⟨⟨?_, ?_⟩, ?_⟩
  · rw [result, hserved]
  · rw [next, hserved]
  · rw [next, result, hserved]
    rfl

theorem next_of_le {f : Frame σ} {r : Request σ} (h : r.required ≤ f.gas) :
    f.Executes r ∧ (f.next r).gas.toNat + r.required.toNat = f.gas.toNat := by
  let executed := (r.operation.execute r.call.invocation).run f.world
  have hserved : f.served r = (.ofOutcome (f.gas - r.required) executed.1, executed.2) :=
    r.operation.serve_of_le { r.call with gasLimit := f.gas } f.world h
  have hleft : (f.next r).gas = f.gas - r.required := by
    rw [next, result, hserved]
    exact CallResult.remaining_ofOutcome _ _
  refine ⟨⟨?_, ?_⟩, ?_⟩
  · rw [hleft, result, hserved]
  · rw [next, hserved]
  · rw [hleft]
    exact Gas.toNat_sub_add h

theorem result_runsOut_iff (f : Frame σ) (r : Request σ) :
    (f.result r).RunsOut ↔ f.gas < r.required :=
  r.operation.serve_runsOut_iff { r.call with gasLimit := f.gas } f.world

theorem gas_next_le (f : Frame σ) (r : Request σ) : (f.next r).gas ≤ f.gas := by
  rw [UInt64.le_iff_toNat_le]
  by_cases h : f.gas < r.required
  · rw [(next_of_lt h).2]
    exact Nat.zero_le _
  · have hsum := (next_of_le (UInt64.not_lt.mp h)).2
    omega

theorem gas_after_le (f : Frame σ) (runs : List (Request σ)) : (f.after runs).gas ≤ f.gas := by
  induction runs generalizing f with
  | nil => exact UInt64.le_refl _
  | cons r rest ih => exact UInt64.le_trans (ih (f.next r)) (f.gas_next_le r)

theorem after_append (f : Frame σ) (runs later : List (Request σ)) :
    f.after (runs ++ later) = (f.after runs).after later :=
  List.foldl_append

theorem gas_after_of_zero {f : Frame σ} (h : f.gas = 0) (runs : List (Request σ)) :
    (f.after runs).gas = 0 := by
  have hle := f.gas_after_le runs
  rw [h] at hle
  exact UInt64.le_zero_iff.mp hle

theorem gas_after_add_required {f : Frame σ} {runs : List (Request σ)} (h : ¬ f.RanOut runs) :
    (f.after runs).gas.toNat + (runs.map fun r => r.required.toNat).sum = f.gas.toNat := by
  induction runs generalizing f with
  | nil => rfl
  | cons r rest ih =>
      obtain ⟨hpaid, hrest⟩ := not_or.mp h
      rw [result_runsOut_iff, UInt64.not_lt] at hpaid
      have first := (next_of_le hpaid).2
      have later : ((f.next r).after rest).gas.toNat + _ = _ := ih hrest
      change ((f.next r).after rest).gas.toNat + _ = _
      rw [List.map_cons, List.sum_cons]
      omega

-- Running out leaves nothing, and no later run brings anything back.
theorem gas_after_of_ranOut {f : Frame σ} {runs : List (Request σ)} (h : f.RanOut runs) :
    (f.after runs).gas = 0 := by
  induction runs generalizing f with
  | nil => exact h.elim
  | cons r rest ih =>
      rcases h with hdry | hlater
      · exact gas_after_of_zero (next_of_lt ((result_runsOut_iff f r).mp hdry)).2 rest
      · exact ih hlater

end Frame

-- Among the requests are those of built-in contracts, which do in any world what they always do.
theorem chained_gas_is_conserved (start : Frame σ) (runs : List (Request σ)) :
    (∀ c call, (start.after runs).served (.ofContract c call) =
      (c.answer { call with gasLimit := (start.after runs).gas }, (start.after runs).world)) ∧
      (∀ later, (start.after (runs ++ later)).gas ≤ (start.after runs).gas) ∧
      (¬ start.RanOut runs →
        (start.after runs).gas.toNat + (runs.map fun r => r.required.toNat).sum =
          start.gas.toNat) ∧
      (start.RanOut runs → ∀ later r,
        let f := start.after (runs ++ later)
        f.gas = 0 ∧ (r.required ≠ 0 → f.Refuses r) ∧
          (r.required = 0 → f.Executes r ∧ (f.next r).gas = 0)) := by
  refine ⟨(start.after runs).served_ofContract, fun later => ?_, Frame.gas_after_add_required,
    fun hdry later r => ?_⟩
  · rw [Frame.after_append]
    exact Frame.gas_after_le _ later
  · intro f
    have hgas : f.gas = 0 := by
      change (start.after (runs ++ later)).gas = 0
      rw [Frame.after_append]
      exact Frame.gas_after_of_zero (Frame.gas_after_of_ranOut hdry) later
    refine ⟨hgas, fun hprice => ?_, fun hprice => ?_⟩
    · have hless : f.gas < r.required := by
        rw [hgas]
        exact UInt64.pos_iff_ne_zero.mpr hprice
      exact (Frame.next_of_lt hless).1
    · have hle : r.required ≤ f.gas := by
        rw [hprice]
        exact UInt64.zero_le
      exact ⟨(Frame.next_of_le hle).1, Frame.gas_after_of_zero hgas [r]⟩

-- A call that succeeds, one that fails and one that is refused; then only what is free is done.
theorem chain_runs_dry :
    let closed : Probe := { price := 20, answer := .error "closed" }
    let start : Frame Probe := ⟨closed, 100⟩
    let paid : List (Request Probe) := [.ofContract .identity {}, ⟨closed.operation, {}⟩]
    let dry : List (Request Probe) := paid ++ [.ofContract .ecRecover {}]
    let free : Request Probe := ⟨{ closed.operation with price := fun _ => 0 }, {}⟩
    ¬ start.RanOut paid ∧ (start.after paid).gas = 65 ∧
      start.RanOut dry ∧ (start.after dry).gas = 0 ∧
      (start.after dry).Refuses ⟨closed.operation, {}⟩ ∧ (start.after dry).Executes free := by
  intro closed start paid dry free
  have hpaid : ¬ start.RanOut paid := by
    rintro (h | h | h)
    · exact absurd ((Frame.result_runsOut_iff _ _).mp h) (by decide +kernel)
    · exact absurd ((Frame.result_runsOut_iff _ _).mp h) (by decide +kernel)
    · exact h
  have hdry : start.RanOut dry :=
    .inr (.inr (.inl ((Frame.result_runsOut_iff _ _).mpr (by decide +kernel))))
  have hleft : (start.after paid).gas.toNat + (15 + (20 + 0)) = 100 :=
    (chained_gas_is_conserved start paid).2.2.1 hpaid
  have hrest := (chained_gas_is_conserved start dry).2.2.2 hdry []
  obtain ⟨hgas, hrefuses, -⟩ := hrest ⟨closed.operation, {}⟩
  obtain ⟨-, -, hexecutes⟩ := hrest free
  refine ⟨hpaid, ?_, hdry, hgas, hrefuses (by decide), (hexecutes rfl).1⟩
  apply UInt64.toNat_inj.mp
  change _ = 65
  omega

end NativeContracts
