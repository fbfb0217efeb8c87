import HopperBench.Router.PinocchioRouter
import HopperBench.Router.Venue

/-!
# No input makes the router or the venue panic

`hop_rate` and the account indexing of the hop loop check nothing themselves:
the rate blocks are there because the length was exact, the accounts because
they were counted, and the venue's divisor is not zero because the parser
refused zero.
-/

set_option autoImplicit false

namespace HopperBench.PanicFree

open StoppingRun HopperBench.Solana HopperBench.RouteWire HopperBench.MeasuredSwap

/-- An error the program returned, as against an index out of range, a zero
divisor or an integer that left its type. -/
def Returned (abort : Abort) : Prop := ∃ e, abort = .error e

/-- From every ledger the program ends in `Ok` or in an error it returned. -/
def NeverPanics (program : Program Unit) : Prop :=
  ∀ ledger abort final, program.run (Machine.start ledger) = (.error abort, final) → Returned abort

theorem neverPanics_of_stopsWith {program : Program Unit} (stops : program.StopsWith Returned) :
    NeverPanics program := fun ledger => stops (Machine.start ledger)

theorem returned_error (e : ProgramError) : Returned (.error e) := ⟨e, rfl⟩

section Pieces

variable {A : Type}

theorem ensure_returned (c : Prop) [Decidable c] (e : ProgramError) :
    (ensure c e).StopsWith Returned := Exec.stopsWith_require (returned_error e)

theorem orFail_returned (opt : Option A) (e : ProgramError) :
    (orFail opt e).StopsWith Returned := by
  apply Exec.stopsWith_lift
  intro abort failed
  cases opt with
  | none =>
      cases failed
      exact returned_error e
  | some a => cases failed

theorem lift_ok_returned {r : Except Abort A} {a : A} (value : r = .ok a) :
    (Exec.lift r : Program A).StopsWith Returned := by
  apply Exec.stopsWith_lift
  intro abort failed
  rw [value] at failed
  cases failed

theorem owner_returned (view : AccountView) : (owner view).StopsWith Returned :=
  (Exec.returns_gets _).stopsWith

theorem lamports_returned (view : AccountView) : (lamports view).StopsWith Returned :=
  (Exec.returns_gets _).stopsWith

theorem setLamports_returned (view : AccountView) (n : UInt64) :
    (setLamports view n).StopsWith Returned := (Exec.returns_modify _).stopsWith

end Pieces

/-! ## The venue -/

theorem parseSwap_returned {data : List UInt8} {abort : Abort}
    (failed : MockAmm.parseSwap data = .error abort) : Returned abort := by
  rw [MockAmm.parseSwap_eq] at failed
  split at failed
  case isTrue => cases failed
  case isFalse =>
    cases failed
    exact returned_error _

theorem swapOut_returned {amount : UInt64} {rateNum rateDen : UInt32} (nonzero : rateDen ≠ 0)
    {abort : Abort} (failed : MockAmm.swapOut amount rateNum rateDen = .error abort) :
    Returned abort := by
  rw [MockAmm.swapOut_eq amount nonzero] at failed
  cases narrowed : CheckedWord.narrow (amount.toNat * rateNum.toNat / rateDen.toNat) with
  | none =>
      rw [narrowed] at failed
      cases failed
      exact returned_error _
  | some out =>
      rw [narrowed] at failed
      cases failed

theorem processSwap_returned (programId : Address) (accounts : List AccountView)
    {args : MockAmm.SwapArgs} (nonzero : args.rateDen ≠ 0) :
    (MockAmm.processSwap programId accounts args).StopsWith Returned := by
  unfold MockAmm.processSwap
  split
  case h_1 pool user _ =>
    apply Exec.StopsWith.bind (owner_returned pool)
    intro poolOwner _ _ _
    apply Exec.StopsWith.bind (ensure_returned _ _)
    intro _ _ _ _
    apply Exec.StopsWith.bind (ensure_returned _ _)
    intro _ _ _ _
    apply Exec.StopsWith.bind (Exec.stopsWith_lift fun _ failed => swapOut_returned nonzero failed)
    intro out _ _ _
    apply Exec.StopsWith.bind (lamports_returned user)
    intro userLamports _ _ _
    apply Exec.StopsWith.bind (orFail_returned _ _)
    intro userAfterDebit _ _ _
    apply Exec.StopsWith.bind (lamports_returned pool)
    intro poolLamports _ _ _
    apply Exec.StopsWith.bind (orFail_returned _ _)
    intro poolAfterCredit _ _ _
    apply Exec.StopsWith.bind (orFail_returned _ _)
    intro poolFinal _ _ _
    apply Exec.StopsWith.bind (orFail_returned _ _)
    intro userFinal _ _ _
    exact (setLamports_returned pool poolFinal).bind fun _ _ _ _ =>
      setLamports_returned user userFinal
  case h_2 => exact Exec.stopsWith_stop (returned_error _)

theorem venue_returned (programId : Address) (accounts : List AccountView) (data : List UInt8) :
    (MockAmm.processInstruction programId accounts data).StopsWith Returned := by
  apply Exec.StopsWith.bind (Exec.stopsWith_lift fun _ failed => parseSwap_returned failed)
  intro args m n parsed
  have nonzero : args.rateDen ≠ 0 := by
    have parseExact : MockAmm.parseSwap data = .ok args := (Exec.lift_eq_ok.mp parsed).1
    rw [MockAmm.parseSwap_eq] at parseExact
    split at parseExact
    case isTrue accepted =>
      obtain rfl : MockAmm.readArgs data = args := Except.ok.inj parseExact
      exact accepted.2.2
    case isFalse => cases parseExact
  exact processSwap_returned programId accounts nonzero

section Router

variable {callee : Callee} {accounts : List AccountView}

theorem measuredSwap_returned
    (answers : ∀ ledger instruction abort, callee ledger instruction = .error abort →
      Returned abort)
    (ammProgram : Address) (pool user : AccountView) (swapData : List UInt8) (inAmount : UInt64) :
    (measuredSwap callee ammProgram pool user swapData inAmount).StopsWith Returned := by
  have invoked : (invoke callee (swapInstruction ammProgram pool.address user.address
      swapData)).StopsWith Returned := by
    intro m abort n stopped
    have issued : (invoke callee (swapInstruction ammProgram pool.address user.address
        swapData)).Meets m (fun _ _ => True) fun abort _ => Returned abort :=
      meets_invoke.mpr ⟨fun _ _ => trivial, fun abort failed => answers _ _ abort failed⟩
    exact issued.bad_of_error stopped
  apply Exec.StopsWith.bind (lamports_returned user)
  intro before _ _ _
  apply invoked.bind
  intro _ _ _ _
  apply Exec.StopsWith.bind (lamports_returned user)
  intro after _ _ _
  apply Exec.StopsWith.bind (orFail_returned _ _)
  intro sum _ _ _
  exact orFail_returned _ _

/-- The checks before the loop put every index of a round in range. -/
theorem hopStep_returned
    (answers : ∀ ledger instruction abort, callee ledger instruction = .error abort →
      Returned abort)
    {data : List UInt8} (accepted : Accepted data)
    (enough : 1 + 2 * (countByte data).toNat ≤ accounts.length) (user : AccountView) (hop : Nat)
    (inAmount : UInt64) (inLoop : hop < (countByte data).toNat) :
    (PinocchioRouter.hopStep callee accounts (decoded data) user hop inAmount).StopsWith
      Returned := by
  have few : (countByte data).toNat ≤ 3 := accepted.2.2.1
  obtain ⟨rate, rateRead⟩ := hopRate_decoded accepted inLoop
  have programRead : index accounts (1 + 2 * hop) = .ok accounts[1 + 2 * hop] :=
    index_of_lt (by omega) (by omega)
  have poolRead : index accounts (2 + 2 * hop) = .ok accounts[2 + 2 * hop] :=
    index_of_lt (by omega) (by omega)
  apply Exec.StopsWith.bind (lift_ok_returned programRead)
  intro ammProgram _ _ _
  apply Exec.StopsWith.bind (lift_ok_returned poolRead)
  intro pool _ _ _
  apply Exec.StopsWith.bind (ensure_returned _ _)
  intro _ _ _ _
  apply Exec.StopsWith.bind (ensure_returned _ _)
  intro _ _ _ _
  apply Exec.StopsWith.bind (lift_ok_returned rateRead)
  intro rate _ _ _
  exact measuredSwap_returned answers _ _ _ _ _

theorem processExecuteRoute_returned
    (answers : ∀ ledger instruction abort, callee ledger instruction = .error abort →
      Returned abort) (data : List UInt8) :
    (PinocchioRouter.processExecuteRoute callee accounts data).StopsWith Returned := by
  apply Exec.StopsWith.bind
  · apply Exec.stopsWith_lift
    intro abort failed
    rw [PinocchioRouter.parseRoute_error failed]
    exact returned_error _
  intro route m _ parsed
  obtain ⟨accepted, rfl⟩ := PinocchioRouter.parseRoute_ok_iff.mp (Exec.lift_eq_ok.mp parsed).1
  have few : (countByte data).toNat ≤ 3 := accepted.2.2.1
  have neededExact : usize (1 + 2 * (decoded data).hopCount.toNat) =
      .ok (1 + 2 * (countByte data).toNat) := usize_of_lt (by simp only [decoded]; omega)
  apply Exec.StopsWith.bind (lift_ok_returned neededExact)
  intro needed _ _ neededRead
  rw [neededExact] at neededRead
  obtain rfl : 1 + 2 * (countByte data).toNat = needed :=
    Except.ok.inj (Exec.lift_eq_ok.mp neededRead).1
  apply Exec.StopsWith.bind (ensure_returned _ _)
  intro _ _ _ counted
  have enough := Nat.not_lt.mp (ensure_eq_ok.mp counted).1
  have userRead : index accounts 0 = .ok accounts[0] := index_of_lt (by omega) (by omega)
  apply Exec.StopsWith.bind (lift_ok_returned userRead)
  intro user _ _ _
  apply Exec.StopsWith.bind (ensure_returned _ _)
  intro _ _ _ _
  apply Exec.StopsWith.bind
  · exact Exec.stopsWith_countUp (fun hop inAmount inLoop =>
      hopStep_returned answers accepted enough user hop inAmount inLoop) _ _ _ (Nat.zero_add _)
  intro totalOut _ _ _
  exact ensure_returned _ _

theorem router_returned
    (answers : ∀ ledger instruction abort, callee ledger instruction = .error abort →
      Returned abort) (programId : Address) (data : List UInt8) :
    (PinocchioRouter.processInstruction callee programId accounts data).StopsWith Returned := by
  by_cases executes : data.head? = some 1
  · obtain ⟨payload, rfl⟩ := List.head?_eq_some_iff.mp executes
    exact processExecuteRoute_returned answers payload
  · intro m abort n stopped
    rw [PinocchioRouter.processInstruction_unknown executes] at stopped
    cases stopped
    exact returned_error _

end Router

/-- Neither program panics on any input: the venue not, the router not whatever
ledgers or errors its calls answer with, and the router over the venue not.  An
answer depends on the whole ledger, so the calls of one route may show the
router any sequence of balances. -/
theorem panic_free :
    (∀ programId accounts data, NeverPanics (MockAmm.processInstruction programId accounts data)) ∧
      (∀ (answers : Ledger → InstructionView → Except ProgramError Ledger) programId accounts data,
        NeverPanics (PinocchioRouter.processInstruction
          (fun ledger instruction => propagate (answers ledger instruction)) programId accounts
          data)) ∧
      ∀ programId accounts data,
        NeverPanics (PinocchioRouter.processInstruction Venue.venue programId accounts data) := by
  refine ⟨?_, ?_, ?_⟩
  · intro programId accounts data
    exact neverPanics_of_stopsWith (venue_returned programId accounts data)
  · intro answers programId accounts data
    apply neverPanics_of_stopsWith (router_returned _ programId data)
    intro ledger instruction abort failed
    cases answer : answers ledger instruction with
    | error e =>
        rw [answer] at failed
        cases failed
        exact returned_error e
    | ok after =>
        rw [answer] at failed
        cases failed
  · intro programId accounts data
    apply neverPanics_of_stopsWith (router_returned _ programId data)
    intro ledger instruction abort failed
    obtain ⟨m, stopped⟩ := calleeOf_eq_error.mp failed
    exact venue_returned _ _ _ _ _ _ stopped

end HopperBench.PanicFree
