import HopperBench.Router.Agreement

/-!
# Which error a short account list gets

The contract counts the accounts before it looks at any of them.  The
Pinocchio router does so.  The Quasar router checks the user first and notices
a missing account only when it pulls it, by which time earlier hops may have
been swapped.
-/

set_option autoImplicit false

namespace HopperBench.Precedence

open StoppingRun HopperBench.Solana HopperBench.RouteWire HopperBench.MeasuredSwap
  HopperBench.RouterBench

/-- The run is rejected for its account count, before any call was issued. -/
def Refuses (x : Program Unit) (ledger : Ledger) : Prop :=
  ∃ m, x.run (Machine.start ledger) = (.error (.error .notEnoughAccountKeys), m) ∧ m.cpis = []

/-- What a refusal rules out: a stop after some call, or with another error. -/
def Late (abort : Abort) (m : Machine) : Prop :=
  m.cpis ≠ [] ∨ abort ≠ .error .notEnoughAccountKeys

theorem not_refuses {x : Program Unit} {ledger : Ledger} {good : Unit → Machine → Prop}
    (late : x.Meets (Machine.start ledger) good Late) : ¬Refuses x ledger := by
  intro refuses
  obtain ⟨m, stopped, unissued⟩ := refuses
  rcases late.bad_of_error stopped with issued | other
  · exact issued unissued
  · exact other rfl

section Quasar

variable {fw : QuasarRouter.Framework} {callee : Callee} {route : Route} {user : AccountView}

theorem hopStep_keeps_issued (hop : Nat) (carried : fw.Iter × UInt64) :
    (QuasarRouter.hopStep fw callee route user hop carried).Keeps fun m => m.cpis ≠ [] := by
  apply (Exec.keeps_lift _).bind
  intro first
  apply (Exec.keeps_lift _).bind
  intro second
  apply (Exec.keeps_require _ _).bind
  intro _
  apply (Exec.keeps_require _ _).bind
  intro _
  apply (Exec.keeps_lift _).bind
  intro rate
  exact measuredSwap_keeps_issued.bind fun out => Exec.keeps_pure _

theorem checkedHop_late {ammProgram pool : AccountView} {hop : Nat} {inAmount : UInt64}
    {rate : UInt32 × UInt32} (m : Machine)
    (rateRead : hopRateWith 8 route.rates hop = .ok rate) :
    (checkedHop callee route user ammProgram pool hop inAmount).Meets m
      (fun _ n => n.cpis ≠ []) Late := by
  apply checkedHop_meets rateRead
  · exact .inr (by simp)
  · exact .inr (by simp)
  · apply measuredSwap_meets
    · intro abort _
      exact .inl (by simp)
    · intro ledger _ _
      exact .inl (by simp [answered])
    · intro ledger out _ _
      simp [answered]

theorem execute_late {iter : fw.Iter} {ammProgram pool : AccountView} {more : List AccountView}
    {rate : UInt32 × UInt32} (m : Machine) (yields : fw.Yields iter (ammProgram :: pool :: more))
    (positive : 1 ≤ route.hopCount.toNat) (rateRead : hopRateWith 8 route.rates 0 = .ok rate) :
    (QuasarRouter.execute fw callee user route iter).Meets m (fun _ _ => True) Late := by
  obtain ⟨middle, programRead, afterProgram⟩ := QuasarRouter.nextHopAccount_cons yields
  obtain ⟨next, poolRead, _⟩ := QuasarRouter.nextHopAccount_cons afterProgram
  obtain ⟨left, count⟩ : ∃ left, route.hopCount.toNat = left + 1 :=
    ⟨route.hopCount.toNat - 1, by omega⟩
  rw [QuasarRouter.execute, Exec.meets_bind, ensure, Exec.meets_require]
  refine ⟨fun _ => ?_, fun _ => .inr (by simp)⟩
  rw [count, Exec.countUp, Exec.bind_bind, Exec.meets_bind]
  -- the first hop has its pair, and what follows it keeps its call on record
  have first : (QuasarRouter.hopStep fw callee route user 0 (iter, route.initialAmount)).Meets m
      (fun _ n => n.cpis ≠ []) Late := by
    refine Exec.Meets.congr ?_ (QuasarRouter.hopStep_run programRead poolRead m)
    exact Exec.meets_bind.mpr (checkedHop_late m rateRead)
  refine first.mono ?_ fun _ _ late => late
  intro carried n issued
  have keeps : (Exec.countUp (QuasarRouter.hopStep fw callee route user) left 1 carried >>=
      fun last => ensure (last.2 ≥ route.minOut) (.custom QuasarRouter.minOutNotMet)).Keeps
        fun m => m.cpis ≠ [] :=
    (Exec.keeps_countUp hopStep_keeps_issued left 1 carried).bind
      fun last => Exec.keeps_require _ _
  exact (keeps n issued).mono (fun _ _ _ => trivial) fun _ _ kept => .inl kept

/-- A writable user and at most one account of the first pair: the count is the
first thing that fails. -/
theorem execute_short {iter : fw.Iter} {rest : List AccountView} (m : Machine)
    (yields : fw.Yields iter rest) (writable : user.isWritable = true) (few : rest.length ≤ 1)
    (positive : 1 ≤ route.hopCount.toNat) :
    (QuasarRouter.execute fw callee user route iter).run m =
      (.error (.error .notEnoughAccountKeys), m) := by
  obtain ⟨left, count⟩ : ∃ left, route.hopCount.toNat = left + 1 :=
    ⟨route.hopCount.toNat - 1, by omega⟩
  have stopped : (QuasarRouter.hopStep fw callee route user 0 (iter, route.initialAmount)).run m =
      (.error (.error .notEnoughAccountKeys), m) := by
    rw [QuasarRouter.hopStep]
    cases rest with
    | nil =>
        have ended := QuasarRouter.nextHopAccount_nil yields
        exact Exec.run_lift_bind_error ended
    | cons ammProgram more =>
        have noMore : more = [] := List.length_eq_zero_iff.mp (by simpa using few)
        subst noMore
        obtain ⟨middle, programRead, afterProgram⟩ := QuasarRouter.nextHopAccount_cons yields
        have ended := QuasarRouter.nextHopAccount_nil afterProgram
        rw [Exec.run_lift_bind_ok programRead]
        exact Exec.run_lift_bind_error ended
  rw [QuasarRouter.execute, run_ensure_bind writable, count]
  apply Exec.run_bind_error
  exact Exec.run_bind_error stopped

theorem execute_readonly {iter : fw.Iter} (m : Machine) (readonly : ¬user.isWritable = true) :
    (QuasarRouter.execute fw callee user route iter).run m =
      (.error (.error .invalidAccountData), m) := by
  rw [QuasarRouter.execute]
  exact run_ensure_bind_error readonly

theorem execute_refuses_iff {iter : fw.Iter} {rest : List AccountView} {rate : UInt32 × UInt32}
    (ledger : Ledger) (yields : fw.Yields iter rest) (positive : 1 ≤ route.hopCount.toNat)
    (rateRead : hopRateWith 8 route.rates 0 = .ok rate) :
    Refuses (QuasarRouter.execute fw callee user route iter) ledger ↔
      user.isWritable = true ∧ rest.length ≤ 1 := by
  constructor
  · intro refuses
    constructor
    · by_contra readonly
      obtain ⟨m, stopped, _⟩ := refuses
      rw [execute_readonly _ readonly] at stopped
      cases stopped
    · by_contra many
      obtain ⟨ammProgram, pool, more, rfl⟩ : ∃ ammProgram pool more,
          rest = ammProgram :: pool :: more := by
        match rest, many with
        | [], many => simp at many
        | [_], many => simp at many
        | ammProgram :: pool :: more, _ => exact ⟨ammProgram, pool, more, rfl⟩
      exact not_refuses (execute_late _ yields positive rateRead) refuses
  · intro condition
    obtain ⟨writable, few⟩ := condition
    exact ⟨_, execute_short _ yields writable few positive, rfl⟩

end Quasar

theorem pinocchio_refuses {callee : Callee} {programId : Address} {accounts : List AccountView}
    {payload : List UInt8} {route : Route} (ledger : Ledger)
    (parsed : PinocchioRouter.parseRoute payload = .ok route)
    (short : accounts.length < 1 + 2 * route.hopCount.toNat) :
    Refuses (PinocchioRouter.processInstruction callee programId accounts (1 :: payload)) ledger :=
  ⟨_, PinocchioRouter.processExecuteRoute_short parsed short _, rfl⟩

/-- On a list too short for its route the Pinocchio router always refuses.  Both
routers do exactly when the user is writable and the list has at most two
accounts. -/
theorem short_list_refused_iff (fw : QuasarRouter.Framework) (lawful : fw.Lawful)
    (callee : Callee) (quasarId pinocchioId : Address) (user : AccountView)
    (rest : List AccountView) (payload : List UInt8) (route : Route)
    (parsed : PinocchioRouter.parseRoute payload = .ok route)
    (short : (user :: rest).length < 1 + 2 * route.hopCount.toNat) (ledger : Ledger) :
    let quasar := QuasarRouter.processInstruction fw callee quasarId (user :: rest) (1 :: payload)
    let pinocchio :=
      PinocchioRouter.processInstruction callee pinocchioId (user :: rest) (1 :: payload)
    Refuses pinocchio ledger ∧
      ((Refuses pinocchio ledger ∧ Refuses quasar ledger) ↔
        user.isWritable = true ∧ (user :: rest).length ≤ 2) := by
  intro quasar pinocchio
  have always : Refuses pinocchio ledger := pinocchio_refuses ledger parsed short
  refine ⟨always, ?_⟩
  obtain ⟨accepted, routeExact⟩ := PinocchioRouter.parseRoute_ok_iff.mp parsed
  have positive : 1 ≤ route.hopCount.toNat := by
    rw [routeExact]
    exact accepted.2.1
  obtain ⟨rate, rateRead⟩ := hopRate_decoded accepted accepted.2.1
  rw [← routeExact] at rateRead
  obtain ⟨ctx, dispatched, rfl, rfl, yields⟩ := lawful.dispatches user rest payload
  have same : quasar.run (Machine.start ledger) =
      (QuasarRouter.execute fw callee ctx.user route ctx.remaining).run (Machine.start ledger) := by
    rw [← QuasarRouter.executeRoute_run parsed]
    exact QuasarRouter.processInstruction_dispatched dispatched
  have transferred : Refuses quasar ledger ↔
      Refuses (QuasarRouter.execute fw callee ctx.user route ctx.remaining) ledger := by
    unfold Refuses
    rw [same]
  rw [transferred, execute_refuses_iff ledger yields positive rateRead, and_iff_right always,
    List.length_cons]
  constructor
  · intro condition
    obtain ⟨writable, few⟩ := condition
    exact ⟨writable, by omega⟩
  · intro condition
    obtain ⟨writable, few⟩ := condition
    exact ⟨writable, by omega⟩

/-- Three of the five accounts of the runner's two-hop row: the Quasar router
swaps the first hop before it misses the second.  A single account that is not
writable: it reports the account, not the count. -/
theorem quasar_short_list_not_refused :
    let venue : Callee := calleeOf MockAmm.processInstruction
    let quasar := fun accounts => QuasarRouter.processInstruction QuasarRouter.listFramework venue
      (fun _ => 0x51) accounts (1 :: twoHopPayload)
    ((quasar (twoHopUser :: twoHopPairs.take 2)).run (Machine.start twoHopLedger)).2.cpis.length =
        1 ∧
      ¬Refuses (quasar (twoHopUser :: twoHopPairs.take 2)) twoHopLedger ∧
      ((quasar [⟨sharedUser 0, false, false⟩]).run (Machine.start twoHopLedger)).1 =
        .error (.error .invalidAccountData) ∧
      ¬Refuses (quasar [⟨sharedUser 0, false, false⟩]) twoHopLedger := by
  intro venue quasar
  have swapped : ((quasar (twoHopUser :: twoHopPairs.take 2)).run
      (Machine.start twoHopLedger)).2.cpis.length = 1 := by decide +kernel
  have reported : ((quasar [⟨sharedUser 0, false, false⟩]).run (Machine.start twoHopLedger)).1 =
      .error (.error .invalidAccountData) := by decide +kernel
  refine ⟨swapped, ?_, reported, ?_⟩
  · intro refuses
    obtain ⟨m, stopped, unissued⟩ := refuses
    rw [stopped, unissued] at swapped
    cases swapped
  · intro refuses
    obtain ⟨m, stopped, _⟩ := refuses
    rw [stopped] at reported
    cases reported

theorem short_list_refused_alone :
    let venue : Callee := calleeOf MockAmm.processInstruction
    Refuses (QuasarRouter.processInstruction QuasarRouter.listFramework venue (fun _ => 0x51)
      [twoHopUser] (1 :: twoHopPayload)) twoHopLedger := by
  intro venue
  have parsed : PinocchioRouter.parseRoute twoHopPayload = .ok (decoded twoHopPayload) := by
    decide +kernel
  exact ((short_list_refused_iff QuasarRouter.listFramework QuasarRouter.listFramework_lawful venue
    (fun _ => 0x51) (fun _ => 0xB2) twoHopUser [] twoHopPayload _ parsed (by decide +kernel)
    twoHopLedger).2.mpr ⟨rfl, by decide⟩).2

end HopperBench.Precedence
