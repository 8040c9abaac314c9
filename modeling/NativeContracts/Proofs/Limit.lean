import NativeContracts.Proofs.Operation

namespace NativeContracts

variable {σ ε : Type}

theorem Gas.toNat_sub_add {gas paid : Gas} (h : paid ≤ gas) :
    (gas - paid).toNat + paid.toNat = gas.toNat := by
  rw [UInt64.toNat_sub_of_le _ _ h]
  exact Nat.sub_add_cancel (UInt64.le_iff_toNat_le.mp h)

namespace CallResult

-- What a paid call makes of its execution: the output or the error as it is, and the gas left.
def ofOutcome (left : Gas) : Except ε Bytes → CallResult ε
  | .ok output => .ok ⟨output, left⟩
  | .error error => .error (.execution error left)

theorem ofOutcome_ne_outOfGas (left required supplied : Gas) (outcome : Except ε Bytes) :
    ofOutcome left outcome ≠ .error (.outOfGas required supplied) := by
  cases outcome with
  | ok output =>
      intro h
      cases h
  | error error =>
      intro h
      cases h

theorem remaining_ofOutcome (left : Gas) (outcome : Except ε Bytes) :
    remaining (ofOutcome left outcome) = left := by
  cases outcome <;> rfl

end CallResult

namespace Operation

theorem settle_fst (required left : Gas) (outcome : Except ε Bytes) :
    (settle required left outcome).1 = .ofOutcome left outcome := by
  cases outcome <;> rfl

-- The result of a call in a world, and the world that the call leaves.
def serve (operation : Operation (StateM σ) ε) (call : Call) (world : σ) : CallResult ε × σ :=
  let ((result, _), after) := (operation.run call).run world
  (result, after)

theorem serve_of_lt (operation : Operation (StateM σ) ε) (call : Call) (world : σ)
    (h : call.gasLimit < operation.price call.input) :
    operation.serve call world =
      (.error (.outOfGas (operation.price call.input) call.gasLimit), world) := by
  rw [serve, run_of_lt operation call h]
  rfl

theorem serve_of_le (operation : Operation (StateM σ) ε) (call : Call) (world : σ)
    (h : operation.price call.input ≤ call.gasLimit) :
    let executed := (operation.execute call.invocation).run world
    operation.serve call world =
      (.ofOutcome (call.gasLimit - operation.price call.input) executed.1, executed.2) := by
  intro executed
  rw [serve, run_of_le operation call h]
  exact Prod.ext (settle_fst _ _ executed.1) rfl

theorem serve_eq_outOfGas_iff (operation : Operation (StateM σ) ε) (call : Call) (world : σ)
    (required supplied : Gas) :
    (operation.serve call world).1 = .error (.outOfGas required supplied) ↔
      call.gasLimit < operation.price call.input ∧
        required = operation.price call.input ∧ supplied = call.gasLimit := by
  by_cases hless : call.gasLimit < operation.price call.input
  · rw [serve_of_lt operation call world hless]
    constructor
    · intro h
      cases h
      exact ⟨hless, rfl, rfl⟩
    · rintro ⟨-, rfl, rfl⟩
      rfl
  · rw [serve_of_le operation call world (UInt64.not_lt.mp hless)]
    constructor
    · intro h
      exact absurd h (CallResult.ofOutcome_ne_outOfGas _ _ _ _)
    · intro h
      exact absurd h.1 hless

theorem serve_runsOut_iff (operation : Operation (StateM σ) ε) (call : Call) (world : σ) :
    (operation.serve call world).1.RunsOut ↔ call.gasLimit < operation.price call.input := by
  constructor
  · rintro ⟨required, supplied, h⟩
    exact ((operation.serve_eq_outOfGas_iff call world required supplied).mp h).1
  · intro h
    exact ⟨_, _, (operation.serve_eq_outOfGas_iff call world _ _).mpr ⟨h, rfl, rfl⟩⟩

-- An operation without effects, in a world that it leaves alone.
def inWorld (operation : Operation Id ε) : Operation (StateM σ) ε where
  price := operation.price
  execute invocation := pure (operation.execute invocation).run

theorem serve_inWorld (operation : Operation Id ε) (call : Call) (world : σ) :
    operation.inWorld.serve call world = ((operation.run call).run.1, world) := by
  by_cases h : call.gasLimit < operation.price call.input
  · rw [serve_of_lt operation.inWorld call world h, run_of_lt operation call h]
    rfl
  · rw [serve_of_le operation.inWorld call world (UInt64.not_lt.mp h),
      run_of_le operation call (UInt64.not_lt.mp h)]
    exact Prod.ext (settle_fst _ _ _).symm rfl

end Operation

-- The limit decides whether an operation is executed and what the caller has left, and has no say
-- in what the execution does. No dispatcher takes part; built-in contracts come in by `inWorld`.
theorem limit_only_gates (operation : Operation (StateM σ) ε) (call : Call) (world : σ)
    {low high : Gas} (h : low ≤ high) :
    let required := operation.price call.input
    let executed := (operation.execute call.invocation).run world
    let served (limit : Gas) := operation.serve { call with gasLimit := limit } world
    ((served low).1 = .error (.outOfGas required low) ↔ low < required) ∧
      ((served low).1 ≠ .error (.outOfGas required low) →
        ∃ left kept : Gas,
          served low = (.ofOutcome left executed.1, executed.2) ∧
          served high = (.ofOutcome kept executed.1, executed.2) ∧
          (left.toNat : Int) = low.toNat - required.toNat ∧
          (kept.toNat : Int) - left.toNat = high.toNat - low.toNat) ∧
      ∀ asked supplied, (served high).1 = .error (.outOfGas asked supplied) →
        (served low).1 = .error (.outOfGas asked low) := by
  intro required executed served
  have hgate : ∀ limit asked supplied, (served limit).1 = .error (.outOfGas asked supplied) ↔
      limit < required ∧ asked = required ∧ supplied = limit :=
    fun limit => operation.serve_eq_outOfGas_iff { call with gasLimit := limit } world
  refine ⟨?_, fun hresult => ?_, fun asked supplied hhigh => ?_⟩
  · rw [hgate]
    simp only [and_true]
  · have hlow : required ≤ low := by
      by_contra hless
      exact hresult ((hgate _ _ _).mpr ⟨UInt64.not_le.mp hless, rfl, rfl⟩)
    have hhigh : required ≤ high := UInt64.le_trans hlow h
    refine ⟨low - required, high - required,
      operation.serve_of_le { call with gasLimit := low } world hlow,
      operation.serve_of_le { call with gasLimit := high } world hhigh, ?_, ?_⟩
    · have hleft := Gas.toNat_sub_add hlow
      omega
    · have hleft := Gas.toNat_sub_add hlow
      have hkept := Gas.toNat_sub_add hhigh
      omega
  · obtain ⟨hless, rfl, -⟩ := (hgate high asked supplied).mp hhigh
    exact (hgate low _ low).mpr ⟨UInt64.lt_of_le_of_lt h hless, rfl, rfl⟩

-- The operation fails after it has produced some output, which its error carries.
theorem partial_output_at_both_limits :
    let operation : Operation (StateM Nat) (Bytes × String) :=
      { price := fun _ => 10
        execute := fun _ => do
          modify (· + 1)
          return .error ([1, 2], "halted") }
    (100 : Gas) ≤ 150 ∧ ∃ left kept : Gas,
      operation.serve { gasLimit := 100 } 0 = (.error (.execution ([1, 2], "halted") left), 1) ∧
      operation.serve { gasLimit := 150 } 0 = (.error (.execution ([1, 2], "halted") kept), 1) ∧
      left.toNat = 90 ∧ kept.toNat = 140 := by
  intro operation
  have hle : (100 : Gas) ≤ 150 := by decide
  obtain ⟨hgate, hpaid, -⟩ := limit_only_gates operation {} 0 hle
  have hcovered : ¬ (100 : Gas) < operation.price [] := by decide
  obtain ⟨left, kept, hlow, hhigh, hleft, hkept⟩ := hpaid (mt hgate.mp hcovered)
  have hprice : (operation.price []).toNat = 10 := rfl
  simp only [hprice, UInt64.reduceToNat] at hleft hkept
  exact ⟨hle, left, kept, hlow, hhigh, by omega, by omega⟩

end NativeContracts
