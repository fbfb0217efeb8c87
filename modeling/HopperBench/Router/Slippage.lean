import HopperBench.Router.RouterBench

/-!
# What a route guarantees its user against any venue

The amount a router forwards never leaves the line
`inAmount = initial + balance - startBalance`: a measured swap moves both sides
by the same amount whatever the venue did to the ledger.  At the end of the
loop that line is the user's result, and the minimum-output gate bounds it.
-/

set_option autoImplicit false

namespace HopperBench.Slippage

open StoppingRun HopperBench.Solana HopperBench.RouteWire HopperBench.MeasuredSwap
  HopperBench.RouterBench

/-- The call of hop `hop` swaps the hop's own rate on some pool and forwards what
the user's balance at that moment accounts for. -/
def Forwarded (route : Route) (user : AccountView) (start : Ledger) (hop : Nat)
    (record : CpiRecord) : Prop :=
  ∃ (rate : UInt32 × UInt32) (pool : Address) (inAmount : UInt64),
    hopRateWith 8 route.rates hop = .ok rate ∧
    record.instruction = swapInstruction (fun _ => 0xAA) pool user.address
      (encodeSwapWith 0 rate.1 rate.2 inAmount) ∧
    (inAmount.toNat : Int) = route.initialAmount.toNat +
      record.before.balances user.address - start.balances user.address

/-- The invariant of the hop loop, before hop `hop`. -/
structure OnLine (route : Route) (user : AccountView) (start : Ledger) (hop : Nat)
    (inAmount : UInt64) (m : Machine) : Prop where
  recorded : Recorded (Forwarded route user start) hop m
  line : inAmount.toNat + start.balances user.address =
    route.initialAmount.toNat + m.ledger.balances user.address

theorem onLine_start (route : Route) (user : AccountView) (start : Ledger) :
    OnLine route user start 0 route.initialAmount (Machine.start start) where
  recorded := recorded_start _ start
  line := rfl

theorem OnLine.step {callee : Callee} {route : Route} {user pool : AccountView}
    {start : Ledger} {hop : Nat} {inAmount out : UInt64} {rate : UInt32 × UInt32}
    {m n : Machine} (on : OnLine route user start hop inAmount m)
    (rateRead : hopRateWith 8 route.rates hop = .ok rate)
    (swapped : (measuredSwap callee (fun _ => 0xAA) pool user
      (encodeSwapWith 0 rate.1 rate.2 inAmount) inAmount).run m = (.ok out, n)) :
    OnLine route user start (hop + 1) out n := by
  obtain ⟨ledger, _, rfl, _, outExact⟩ := measuredSwap_eq_ok.mp swapped
  have line := on.line
  refine ⟨on.recorded.snoc ledger m.writes ?_, ?_⟩
  · refine ⟨rate, pool.address, inAmount, rateRead, rfl, ?_⟩
    simp only
    omega
  · simp only [answered]
    omega

theorem pinocchio_hop_onLine (callee : Callee) (accounts : List AccountView) {route : Route}
    {user : AccountView} {start : Ledger} (hop : Nat) (inAmount : UInt64) (m : Machine)
    (on : OnLine route user start hop inAmount m) :
    (PinocchioRouter.hopStep callee accounts route user hop inAmount).Meets m
      (OnLine route user start (hop + 1)) fun _ _ => True := by
  apply Exec.meets_of_ok
  intro out n ok
  obtain ⟨_, ammProgram, pool, rate, read, swapped⟩ := PinocchioRouter.hopStep_eq_ok.mp ok
  exact on.step read.rate_eq swapped

theorem quasar_hop_onLine {fw : QuasarRouter.Framework} (callee : Callee) {route : Route}
    {user : AccountView} {start : Ledger} (hop : Nat) (carried : fw.Iter × UInt64) (m : Machine)
    (on : OnLine route user start hop carried.2 m) :
    (QuasarRouter.hopStep fw callee route user hop carried).Meets m
      (fun next => OnLine route user start (hop + 1) next.2) fun _ _ => True := by
  apply Exec.meets_of_ok
  intro next n ok
  obtain ⟨first, pool, rate, _, _, _, _, rateRead, swapped⟩ := QuasarRouter.hopStep_eq_ok.mp ok
  exact on.step rateRead swapped

/-! ## The guarantee -/

/-- What the user of a route that returned `Ok` may rely on, over the integers. -/
structure Guarantee (route : Route) (user : AccountView) (start : Ledger) (totalOut : UInt64)
    (final : Machine) : Prop where
  delta : (final.ledger.balances user.address : Int) - start.balances user.address =
    totalOut.toNat - route.initialAmount.toNat
  gate : route.minOut.toNat ≤ totalOut.toNat
  floor : (final.ledger.balances user.address : Int) ≥
    start.balances user.address - route.initialAmount.toNat + route.minOut.toNat
  hops : Recorded (Forwarded route user start) route.hopCount.toNat final

theorem OnLine.guarantee {route : Route} {user : AccountView} {start : Ledger}
    {totalOut : UInt64} {final : Machine}
    (on : OnLine route user start route.hopCount.toNat totalOut final)
    (gate : route.minOut ≤ totalOut) : Guarantee route user start totalOut final := by
  have line := on.line
  have gateNat : route.minOut.toNat ≤ totalOut.toNat := UInt64.le_iff_toNat_le.mp gate
  exact ⟨by omega, gateNat, by omega, on.recorded⟩

theorem pinocchio_loop_onLine (callee : Callee) (accounts : List AccountView) (route : Route)
    (user : AccountView) (start : Ledger) :
    (Exec.countUp (PinocchioRouter.hopStep callee accounts route user)
      route.hopCount.toNat 0 route.initialAmount).Meets (Machine.start start)
      (OnLine route user start route.hopCount.toNat) fun _ _ => True := by
  apply Exec.countUp_meets ?_ _ _ _ _ (Nat.zero_add _) (onLine_start route user start)
  intro hop inAmount m _ on
  exact pinocchio_hop_onLine callee accounts hop inAmount m on

theorem quasar_loop_onLine (fw : QuasarRouter.Framework) (callee : Callee) (route : Route)
    (user : AccountView) (remaining : fw.Iter) (start : Ledger) :
    (Exec.countUp (QuasarRouter.hopStep fw callee route user)
      route.hopCount.toNat 0 (remaining, route.initialAmount)).Meets (Machine.start start)
      (fun last => OnLine route user start route.hopCount.toNat last.2) fun _ _ => True := by
  let inv : Nat → fw.Iter × UInt64 → Machine → Prop :=
    fun hop carried => OnLine route user start hop carried.2
  have round : ∀ hop carried m, hop < route.hopCount.toNat → inv hop carried m →
      (QuasarRouter.hopStep fw callee route user hop carried).Meets m (inv (hop + 1))
        fun _ _ => True := by
    intro hop carried m _ on
    exact quasar_hop_onLine callee hop carried m on
  exact Exec.countUp_meets round _ _ _ _ (Nat.zero_add _) (onLine_start route user start)

/-- Against every venue, a route that returns `Ok` leaves its user with at least
`start - initial_amount + min_out`, on either router. -/
theorem route_slippage_guarantee (callee : Callee) (ledger : Ledger) :
    (∀ accounts data final,
      (PinocchioRouter.processExecuteRoute callee accounts data).run (Machine.start ledger) =
        (.ok (), final) →
      ∃ route user totalOut, PinocchioRouter.parseRoute data = .ok route ∧
        accounts[0]? = some user ∧
        (Exec.countUp (PinocchioRouter.hopStep callee accounts route user)
          route.hopCount.toNat 0 route.initialAmount).run (Machine.start ledger) =
            (.ok totalOut, final) ∧
        Guarantee route user ledger totalOut final) ∧
    (∀ (fw : QuasarRouter.Framework) user route (remaining : fw.Iter) final,
      (QuasarRouter.execute fw callee user route remaining).run (Machine.start ledger) =
        (.ok (), final) →
      ∃ last, (Exec.countUp (QuasarRouter.hopStep fw callee route user)
          route.hopCount.toNat 0 (remaining, route.initialAmount)).run (Machine.start ledger) =
            (.ok last, final) ∧
        Guarantee route user ledger last.2 final) := by
  constructor
  · intro accounts data final ok
    obtain ⟨route, user, totalOut, parsed, _, userFound, _, loop, gate⟩ :=
      PinocchioRouter.processExecuteRoute_eq_ok.mp ok
    have on := (pinocchio_loop_onLine callee accounts route user ledger).good_of_ok loop
    exact ⟨route, user, totalOut, parsed, userFound, loop, on.guarantee gate⟩
  · intro fw user route remaining final ok
    obtain ⟨last, _, loop, gate⟩ := QuasarRouter.execute_eq_ok.mp ok
    have on := (quasar_loop_onLine fw callee route user remaining ledger).good_of_ok loop
    exact ⟨last, loop, on.guarantee gate⟩

theorem route_slippage_two_hops :
    let venue : Callee := calleeOf MockAmm.processInstruction
    ∃ first second totalOut last,
      (PinocchioRouter.processExecuteRoute venue (twoHopUser :: twoHopPairs) twoHopPayload).run
        (Machine.start twoHopLedger) = (.ok (), first) ∧
      (QuasarRouter.execute QuasarRouter.listFramework venue twoHopUser (decoded twoHopPayload)
        twoHopPairs).run (Machine.start twoHopLedger) = (.ok (), second) ∧
      Guarantee (decoded twoHopPayload) twoHopUser twoHopLedger totalOut first ∧
      Guarantee (decoded twoHopPayload) twoHopUser twoHopLedger last second := by
  intro venue
  have firstOk : ((PinocchioRouter.processExecuteRoute (calleeOf MockAmm.processInstruction)
      (twoHopUser :: twoHopPairs) twoHopPayload).run (Machine.start twoHopLedger)).1 =
        .ok () := by
    decide +kernel
  have secondOk : ((QuasarRouter.execute QuasarRouter.listFramework
      (calleeOf MockAmm.processInstruction) twoHopUser (decoded twoHopPayload) twoHopPairs).run
        (Machine.start twoHopLedger)).1 = .ok () := by
    decide +kernel
  obtain ⟨route, found, totalOut, parsed, userFound, _, firstKept⟩ :=
    (route_slippage_guarantee venue twoHopLedger).1 (twoHopUser :: twoHopPairs) twoHopPayload _
      (Exec.run_eq_of_fst firstOk)
  obtain ⟨last, _, secondKept⟩ :=
    (route_slippage_guarantee venue twoHopLedger).2 QuasarRouter.listFramework twoHopUser
      (decoded twoHopPayload) twoHopPairs _ (Exec.run_eq_of_fst secondOk)
  obtain ⟨_, rfl⟩ := PinocchioRouter.parseRoute_ok_iff.mp parsed
  obtain rfl : twoHopUser = found := Option.some.inj userFound
  exact ⟨_, _, totalOut, last.2, Exec.run_eq_of_fst firstOk, Exec.run_eq_of_fst secondOk,
    firstKept, secondKept⟩

end HopperBench.Slippage
