import NativeContracts.Dispatcher
import NativeContracts.Proofs.Contract

namespace NativeContracts

-- The call got nothing, because its limit was below the price.
def CallResult.RunsOut {ε : Type} (result : CallResult ε) : Prop :=
  ∃ required supplied, result = .error (.outOfGas required supplied)

namespace Operation

variable {m : Type → Type} [Monad m] {ε : Type}

-- What a call that has been paid for makes of the outcome of its execution.
def settle (required remaining : Gas) : Except ε Bytes → CallResult ε × Event
  | .ok output => (.ok ⟨output, remaining⟩, .executed required remaining)
  | .error error => (.error (.execution error remaining), .failed required remaining)

-- Below the price nothing is executed, whatever effects the operation would have had.
theorem run_of_lt (operation : Operation m ε) (call : Call)
    (h : call.gasLimit < operation.price call.input) :
    operation.run call =
      pure (.error (.outOfGas (operation.price call.input) call.gasLimit),
        .outOfGas (operation.price call.input) call.gasLimit) :=
  if_pos h

-- From the price on the operation is executed once, and nothing else happens.
theorem run_of_le (operation : Operation m ε) (call : Call)
    (h : operation.price call.input ≤ call.gasLimit) :
    operation.run call = do
      let outcome ← operation.execute call.invocation
      return settle (operation.price call.input)
        (call.gasLimit - operation.price call.input) outcome := by
  rw [run, if_neg (UInt64.not_lt.mpr h)]
  refine congrArg (operation.execute call.invocation >>= ·) (funext fun outcome => ?_)
  cases outcome <;> rfl

-- Of a call, only the price, the execution and the limit come into the result.
theorem run_congr {operation : Operation m ε} {call other : Call}
    (hprice : operation.price call.input = operation.price other.input)
    (hexecute : operation.execute call.invocation = operation.execute other.invocation)
    (hlimit : call.gasLimit = other.gasLimit) : operation.run call = operation.run other := by
  simp only [run, hprice, hexecute, hlimit]

end Operation

namespace Contract

-- The result of a call of a built-in contract.
def answer (c : Contract) (call : Call) : CallResult Failure :=
  (Id.run (c.operation.run call)).1

theorem answer_of_lt (c : Contract) (call : Call) (h : call.gasLimit < c.quote call.input) :
    c.answer call = .error (.outOfGas (c.quote call.input) call.gasLimit) := by
  rw [answer, Operation.run_of_lt c.operation call h]
  rfl

theorem answer_of_le (c : Contract) (call : Call) (h : c.quote call.input ≤ call.gasLimit) :
    c.answer call =
      match c.attempt call.input with
      | .ok output => .ok ⟨output, call.gasLimit - c.quote call.input⟩
      | .error fault =>
        .error (.execution (.backend fault.message) (call.gasLimit - c.quote call.input)) := by
  have hexecute : c.operation.execute call.invocation = c.execute call.input := rfl
  rw [answer, Operation.run_of_le c.operation call h, hexecute, execute_eq]
  cases c.attempt call.input <;> rfl

theorem answer_runsOut_iff (c : Contract) (call : Call) :
    (c.answer call).RunsOut ↔ call.gasLimit < c.quote call.input := by
  constructor
  · rintro ⟨required, supplied, hanswer⟩
    by_contra hpaid
    rw [answer_of_le c call (UInt64.not_lt.mp hpaid)] at hanswer
    cases hattempt : c.attempt call.input with
    | ok output =>
        rw [hattempt] at hanswer
        cases hanswer
    | error fault =>
        rw [hattempt] at hanswer
        cases hanswer
  · intro h
    exact ⟨_, _, answer_of_lt c call h⟩

theorem quote_le_of_not_runsOut {c : Contract} {call : Call} (h : ¬ (c.answer call).RunsOut) :
    c.quote call.input ≤ call.gasLimit :=
  UInt64.not_lt.mp fun hless => h ((answer_runsOut_iff c call).mpr hless)

end Contract

end NativeContracts
