import HopperBench.Library.CheckedWord
import HopperBench.Router.RouteWire

/-!
# One measured swap

Both routers end a hop with the same steps: read the user's lamports, issue
the swap, read them again, and take `after + in - before` as the output.  The
venue is any callee, so nothing is known about the second reading.

`checkedHop` is the rest of a hop once its two accounts are in hand, and
`Recorded` is what a hop loop keeps about the calls it has issued.
-/

set_option autoImplicit false

namespace HopperBench.MeasuredSwap

open StoppingRun CheckedWord HopperBench.Solana HopperBench.RouteWire

def swapInstruction (ammProgram pool user : Address) (swapData : List UInt8) :
    InstructionView where
  programId := ammProgram
  accounts := [.writable pool, .writable user]
  data := swapData

def measuredSwap (callee : Callee) (ammProgram : Address) (pool user : AccountView)
    (swapData : List UInt8) (inAmount : UInt64) : Program UInt64 := do
  let before ← lamports user
  invoke callee (swapInstruction ammProgram pool.address user.address swapData)
  let after ← lamports user
  -- Measure the hop output: out = after + in - before, checked.
  let sum ← orFail (checkedAdd after inAmount) .arithmeticOverflow
  orFail (checkedSub sum before) .arithmeticOverflow

def answered (m : Machine) (instruction : InstructionView) (ledger : Ledger) : Machine :=
  ⟨ledger, m.cpis ++ [⟨instruction, m.ledger, .ok ledger⟩], m.writes⟩

section Spec

variable {callee : Callee} {ammProgram : Address} {pool user : AccountView}
  {swapData : List UInt8} {inAmount : UInt64}

theorem measuredSwap_eq_ok {m n : Machine} {out : UInt64} :
    (measuredSwap callee ammProgram pool user swapData inAmount).run m = (.ok out, n) ↔
      ∃ ledger, callee m.ledger (swapInstruction ammProgram pool.address user.address swapData) =
          .ok ledger ∧
        n = answered m (swapInstruction ammProgram pool.address user.address swapData) ledger ∧
        ledger.balances user.address + inAmount.toNat < 2 ^ 64 ∧
        out.toNat + m.ledger.balances user.address =
          ledger.balances user.address + inAmount.toNat := by
  simp only [measuredSwap, run_lamports_bind, invoke_bind_eq_ok, orFail_bind_eq_ok, orFail_eq_ok,
    checkedAdd_eq_some, checkedSub_eq_some]
  constructor
  · intro given
    obtain ⟨ledger, answer, sum, sumExact, outExact, rfl⟩ := given
    have sumBound : sum.toNat < 2 ^ 64 := sum.toNat_lt
    refine ⟨ledger, answer, rfl, ?_, ?_⟩ <;> simp only [Ledger.balances] <;> omega
  · intro given
    obtain ⟨ledger, answer, rfl, fits, outExact⟩ := given
    obtain ⟨sum, sumExact⟩ := exists_sum fits
    simp only [Ledger.balances] at outExact
    exact ⟨ledger, answer, sum, sumExact, by omega, rfl⟩

/-- Every way a measured swap can end.  A stop is the venue's own failure, or
one of the two measurement steps leaving `u64`. -/
theorem measuredSwap_meets {m : Machine} {good : UInt64 → Machine → Prop}
    {bad : Abort → Machine → Prop}
    (failed : ∀ abort, callee m.ledger (swapInstruction ammProgram pool.address user.address
        swapData) = .error abort →
      bad abort ⟨m.ledger, m.cpis ++ [⟨swapInstruction ammProgram pool.address user.address
        swapData, m.ledger, .error abort⟩], m.writes⟩)
    (overflowed : ∀ ledger, callee m.ledger (swapInstruction ammProgram pool.address user.address
        swapData) = .ok ledger →
      2 ^ 64 ≤ ledger.balances user.address + inAmount.toNat ∨
        ledger.balances user.address + inAmount.toNat < m.ledger.balances user.address →
      bad (.error .arithmeticOverflow) (answered m (swapInstruction ammProgram pool.address
        user.address swapData) ledger))
    (measured : ∀ ledger out, callee m.ledger (swapInstruction ammProgram pool.address user.address
        swapData) = .ok ledger →
      out.toNat + m.ledger.balances user.address =
        ledger.balances user.address + inAmount.toNat →
      good out (answered m (swapInstruction ammProgram pool.address user.address swapData)
        ledger)) :
    (measuredSwap callee ammProgram pool user swapData inAmount).Meets m good bad := by
  unfold measuredSwap lamports
  rw [Exec.meets_bind, Exec.meets_gets, Exec.meets_bind, meets_invoke]
  refine ⟨fun ledger answer => ?_, failed⟩
  rw [Exec.meets_bind, Exec.meets_gets, Exec.meets_bind, meets_orFail]
  refine ⟨fun sum sumExact => ?_, fun none => ?_⟩
  · rw [checkedAdd_eq_some] at sumExact
    dsimp only at sumExact
    rw [meets_orFail]
    refine ⟨fun out outExact => ?_, fun none => ?_⟩
    · rw [checkedSub_eq_some] at outExact
      apply measured ledger out answer
      simp only [Ledger.balances]
      omega
    · rw [checkedSub_eq_none] at none
      apply overflowed ledger answer
      right
      simp only [Ledger.balances]
      omega
  · rw [checkedAdd_eq_none] at none
    exact overflowed ledger answer (.inl none)

theorem measuredSwap_keeps_issued :
    (measuredSwap callee ammProgram pool user swapData inAmount).Keeps fun m => m.cpis ≠ [] := by
  intro m _
  apply measuredSwap_meets
  · intro abort _
    simp
  · intro ledger _ _
    simp [answered]
  · intro ledger out _ _
    simp [answered]

end Spec

def checkedHop (callee : Callee) (route : Route) (user ammProgram pool : AccountView)
    (hop : Nat) (inAmount : UInt64) : Program UInt64 := do
  ensure (ammProgram.address = fun _ => 0xAA) .incorrectProgramId
  ensure (pool.isWritable = true) .invalidAccountData
  let rate ← Exec.lift (hopRateWith 8 route.rates hop)
  measuredSwap callee (fun _ => 0xAA) pool user (encodeSwapWith 0 rate.1 rate.2 inAmount) inAmount

theorem checkedHop_meets {callee : Callee} {route : Route} {user ammProgram pool : AccountView}
    {hop : Nat} {inAmount : UInt64} {rate : UInt32 × UInt32} {m : Machine}
    {good : UInt64 → Machine → Prop} {bad : Abort → Machine → Prop}
    (rateRead : hopRateWith 8 route.rates hop = .ok rate)
    (foreign : bad (.error .incorrectProgramId) m)
    (readonly : bad (.error .invalidAccountData) m)
    (swap : (measuredSwap callee (fun _ => 0xAA) pool user
      (encodeSwapWith 0 rate.1 rate.2 inAmount) inAmount).Meets m good bad) :
    (checkedHop callee route user ammProgram pool hop inAmount).Meets m good bad := by
  rw [checkedHop, Exec.meets_bind, ensure, Exec.meets_require]
  refine ⟨fun _ => ?_, fun _ => foreign⟩
  rw [Exec.meets_bind, ensure, Exec.meets_require]
  refine ⟨fun _ => ?_, fun _ => readonly⟩
  rw [Exec.meets_bind, Exec.meets_lift]
  refine ⟨fun read isRate => ?_, fun abort failed => ?_⟩
  · obtain rfl : rate = read := Except.ok.inj (rateRead.symm.trans isRate)
    exact swap
  · rw [rateRead] at failed
    cases failed

/-- Before hop `hop` exactly `hop` calls have been issued, and each meets `P`. -/
structure Recorded (P : Nat → CpiRecord → Prop) (hop : Nat) (m : Machine) : Prop where
  issued : m.cpis.length = hop
  each : ∀ i (inside : i < m.cpis.length), P i m.cpis[i]

theorem recorded_start (P : Nat → CpiRecord → Prop) (ledger : Ledger) :
    Recorded P 0 (Machine.start ledger) where
  issued := rfl
  each := by
    intro i inside
    simp [Machine.start] at inside

theorem Recorded.snoc {P : Nat → CpiRecord → Prop} {hop : Nat} {m : Machine}
    (recorded : Recorded P hop m) {record : CpiRecord} (ledger : Ledger)
    (writes : List AccountView) (holds : P hop record) :
    Recorded P (hop + 1) ⟨ledger, m.cpis ++ [record], writes⟩ := by
  have issued := recorded.issued
  refine ⟨by simp [issued], ?_⟩
  intro i inside
  simp only [List.length_append, List.length_cons, List.length_nil] at inside
  rcases Nat.lt_or_ge i m.cpis.length with earlier | last
  · simp only [List.getElem_append_left earlier]
    exact recorded.each i earlier
  · have atHop : i = hop := by omega
    subst atHop
    simp only [issued, Nat.le_refl, List.getElem_append_right, Nat.sub_self,
      List.getElem_cons_zero]
    exact holds

end HopperBench.MeasuredSwap
