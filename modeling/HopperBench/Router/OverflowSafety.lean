import HopperBench.Library.Transactions
import HopperBench.Router.RouterBench
import HopperBench.Router.Venue

/-!
# Overflow safety under a supply bound

When all lamports together stay below half the word range, no checked addition
of the venue or of the router can overflow and no measured subtraction can
underflow.  What is left as a source of `ArithmeticOverflow` is the narrowing
of the venue's quotient.  The bound is an invariant of whole sequences of
routes, because a route only moves lamports.
-/

set_option autoImplicit false

namespace HopperBench.OverflowSafety

open StoppingRun CheckedWord HopperBench.Solana HopperBench.RouteWire HopperBench.MeasuredSwap
  HopperBench.PinocchioRouter HopperBench.Venue

def maxSupply : Nat := 2 ^ 63 - 1

/-- Neither credit of a swap overflows, whenever the swap gets to it. -/
structure CreditsFit (ledger : Ledger) (pool user : Address) (args : MockAmm.SwapArgs) : Prop where
  poolCredit : ∀ debited, checkedSub (ledger user).lamports args.amount = some debited →
    checkedAdd (ledger pool).lamports args.amount ≠ none
  userCredit : ∀ out debited credited paid,
    MockAmm.swapOut args.amount args.rateNum args.rateDen = .ok out →
    checkedSub (ledger user).lamports args.amount = some debited →
    checkedAdd (ledger pool).lamports args.amount = some credited →
    checkedSub credited out = some paid → checkedAdd debited out ≠ none

theorem creditsFit_of_supply {ledger : Ledger} {pool user : Address} {args : MockAmm.SwapArgs}
    (distinct : pool ≠ user) (supply : ledger.total ≤ maxSupply) :
    CreditsFit ledger pool user args := by
  have pair : ledger.balances pool + ledger.balances user ≤ ledger.total :=
    Balances.pair_le_total ledger.balances distinct
  simp only [Ledger.balances, maxSupply] at pair supply
  refine ⟨?_, ?_⟩
  · intro debited debit overflow
    rw [checkedSub_eq_some] at debit
    rw [checkedAdd_eq_none] at overflow
    omega
  · intro out debited credited paid _ debit credit pay overflow
    rw [checkedSub_eq_some] at debit pay
    rw [checkedAdd_eq_some] at credit
    rw [checkedAdd_eq_none] at overflow
    omega

theorem processSwap_overflow {programId : Address} {pool user : AccountView}
    {rest : List AccountView} {args : MockAmm.SwapArgs} {m : Machine}
    (fit : CreditsFit m.ledger pool.address user.address args) :
    (MockAmm.processSwap programId (pool :: user :: rest) args).Meets m (fun _ _ => True)
      fun abort _ => abort = .error .arithmeticOverflow →
        MockAmm.swapOut args.amount args.rateNum args.rateDen =
          .error (.error .arithmeticOverflow) := by
  unfold MockAmm.processSwap owner ensure lamports
  simp only [Exec.meets_bind, Exec.meets_gets, Exec.meets_require, Exec.meets_lift, meets_orFail]
  refine ⟨fun _ => ⟨fun _ => ⟨?_, ?_⟩, by simp⟩, by simp⟩
  · intro out payout
    refine ⟨?_, by simp⟩
    intro debited debit
    refine ⟨?_, fun overflow => absurd overflow (fit.poolCredit debited debit)⟩
    intro credited credit
    refine ⟨?_, by simp⟩
    intro paid pay
    refine ⟨fun _ _ => trivial, fun overflow => ?_⟩
    exact absurd overflow (fit.userCredit out debited credited paid payout debit credit pay)
  · intro abort failed isOverflow
    rw [failed, isOverflow]

/-- The venue answers `ArithmeticOverflow` only for its quotient. -/
theorem venue_overflow {ledger : Ledger} {pool user : Address} {rate : UInt32 × UInt32}
    {amount : UInt64} (fit : CreditsFit ledger pool user ⟨rate.1, rate.2, amount⟩)
    (overflowed : venue ledger (swapCall pool user rate amount) =
      .error (.error .arithmeticOverflow)) :
    MockAmm.swapOut amount rate.1 rate.2 = .error (.error .arithmeticOverflow) := by
  obtain ⟨m, stopped⟩ := calleeOf_eq_error.mp overflowed
  have stopped' : (MockAmm.processInstruction venueId [⟨pool, false, true⟩,
      ⟨user, false, true⟩] (encodeSwapWith 0 rate.1 rate.2 amount)).run (Machine.start ledger) =
        (.error (.error .arithmeticOverflow), m) := stopped
  rw [MockAmm.processInstruction, MockAmm.parseSwap_encode] at stopped'
  by_cases zero : rate.2 = 0
  · have impossible : (Exec.lift (.error (.error .invalidInstructionData)) >>=
        MockAmm.processSwap venueId [⟨pool, false, true⟩, ⟨user, false, true⟩]).run
          (Machine.start ledger) = (.error (.error .arithmeticOverflow), m) := by
      simpa [zero] using stopped'
    cases impossible
  · rw [if_pos zero] at stopped'
    have swapStopped : (MockAmm.processSwap venueId [⟨pool, false, true⟩, ⟨user, false, true⟩]
        ⟨rate.1, rate.2, amount⟩).run (Machine.start ledger) =
          (.error (.error .arithmeticOverflow), m) := stopped'
    exact (processSwap_overflow fit).bad_of_error swapStopped rfl

/-! ## Calls and hops -/

def Measured (user : Address) (amount : UInt64) (before after : Ledger) : Prop :=
  ∃ sum out, checkedAdd (after user).lamports amount = some sum ∧
    checkedSub sum (before user).lamports = some out

/-- A call of a route: a swap between two different accounts whose credits fit,
whose measurement succeeds if it does, and that fails with `ArithmeticOverflow`
only for its quotient. -/
structure SafeCall (pool user : Address) (rate : UInt32 × UInt32) (amount : UInt64)
    (record : CpiRecord) : Prop where
  instruction_eq : record.instruction = swapCall pool user rate amount
  outcome_eq : record.outcome = venue record.before record.instruction
  credits : CreditsFit record.before pool user ⟨rate.1, rate.2, amount⟩
  measured : ∀ after, record.outcome = .ok after → Measured user amount record.before after
  overflow : record.outcome = .error (.error .arithmeticOverflow) →
    MockAmm.swapOut amount rate.1 rate.2 = .error (.error .arithmeticOverflow)

def Safe (record : CpiRecord) : Prop :=
  ∃ pool user rate amount, SafeCall pool user rate amount record

def LastCallOverflowed (m : Machine) : Prop :=
  ∃ record, m.cpis.getLast? = some record ∧ record.outcome = .error (.error .arithmeticOverflow)

structure Sound (supply : Nat) (m : Machine) : Prop where
  total : m.ledger.total = supply
  safe : ∀ record ∈ m.cpis, Safe record

structure Stopped (abort : Abort) (m : Machine) : Prop where
  safe : ∀ record ∈ m.cpis, Safe record
  overflow : abort = .error .arithmeticOverflow → LastCallOverflowed m

section Call

variable {ledger after : Ledger} {pool user : Address} {rate : UInt32 × UInt32}
  {amount : UInt64}

theorem venue_ok_sound (distinct : pool ≠ user) (supply : ledger.total ≤ maxSupply)
    (answer : venue ledger (swapCall pool user rate amount) = .ok after) :
    after.total = ledger.total ∧ Measured user amount ledger after := by
  obtain ⟨out, _, admits, rfl⟩ := venue_eq_ok.mp answer
  have sheet := balances_settled distinct admits
  have covers := admits.userCovers
  have poolCovers := admits.poolCovers
  have pair : ledger.balances pool + ledger.balances user ≤ ledger.total :=
    Balances.pair_le_total ledger.balances distinct
  have userAfter : (settled ledger pool user amount out).balances user =
      ledger.balances user - amount.toNat + out.toNat := by
    rw [sheet, Exchanges.exchange_trader distinct]
  constructor
  · rw [Ledger.total, sheet, Exchanges.total_exchange distinct covers poolCovers, Ledger.total]
  · simp only [Ledger.balances, maxSupply] at *
    have fits : (settled ledger pool user amount out user).lamports.toNat + amount.toNat <
        2 ^ 64 := by
      omega
    obtain ⟨sum, sumExact⟩ := exists_sum fits
    exact ⟨sum, out, checkedAdd_eq_some.mpr sumExact, checkedSub_eq_some.mpr (by omega)⟩

theorem safe_call (distinct : pool ≠ user) (supply : ledger.total ≤ maxSupply) :
    Safe ⟨swapCall pool user rate amount, ledger,
      venue ledger (swapCall pool user rate amount)⟩ := by
  have fit : CreditsFit ledger pool user ⟨rate.1, rate.2, amount⟩ :=
    creditsFit_of_supply distinct supply
  refine ⟨pool, user, rate, amount, rfl, rfl, fit, ?_, ?_⟩
  · intro after answer
    exact (venue_ok_sound distinct supply answer).2
  · intro overflowed
    exact venue_overflow fit overflowed

end Call

section Hop

variable {route : Route} {user : AccountView} {supply : Nat}

/-- The step lemma: a hop between different accounts keeps the supply and its
calls safe, and can stop with `ArithmeticOverflow` only inside its call. -/
theorem checkedHop_sound {ammProgram pool : AccountView} {hop : Nat} {inAmount : UInt64}
    {rate : UInt32 × UInt32} {m : Machine} (bound : supply ≤ maxSupply)
    (rateRead : hopRateWith 8 route.rates hop = .ok rate)
    (distinct : pool.address ≠ user.address) (sound : Sound supply m) :
    (checkedHop venue route user ammProgram pool hop inAmount).Meets m
      (fun _ => Sound supply) Stopped := by
  obtain ⟨total, safe⟩ := sound
  have within : m.ledger.total ≤ maxSupply := by rw [total]; exact bound
  have recorded : ∀ record ∈ m.cpis ++ [⟨swapCall pool.address user.address rate inAmount,
      m.ledger, venue m.ledger (swapCall pool.address user.address rate inAmount)⟩],
      Safe record := by
    intro record member
    rcases List.mem_append.mp member with earlier | last
    · exact safe record earlier
    · rw [List.mem_singleton.mp last]
      exact safe_call distinct within
  apply checkedHop_meets rateRead
  · exact ⟨safe, by simp⟩
  · exact ⟨safe, by simp⟩
  · apply measuredSwap_meets
    · intro abort failed
      have answer : venue m.ledger (swapCall pool.address user.address rate inAmount) =
          .error abort := failed
      rw [answer] at recorded
      refine ⟨recorded, ?_⟩
      intro isOverflow
      refine ⟨_, List.getLast?_concat, ?_⟩
      rw [isOverflow]
    · intro ledger answered unmeasured
      have answer : venue m.ledger (swapCall pool.address user.address rate inAmount) =
          .ok ledger := answered
      obtain ⟨_, sum, out, added, subtracted⟩ := venue_ok_sound distinct within answer
      rw [checkedAdd_eq_some] at added
      rw [checkedSub_eq_some] at subtracted
      have sumBound : sum.toNat < 2 ^ 64 := sum.toNat_lt
      simp only [Ledger.balances] at unmeasured
      omega
    · intro ledger out answered _
      have answer : venue m.ledger (swapCall pool.address user.address rate inAmount) =
          .ok ledger := answered
      rw [answer] at recorded
      refine ⟨?_, recorded⟩
      exact (venue_ok_sound distinct within answer).1.trans total

end Hop

section Routes

variable {accounts : List AccountView} {payload : List UInt8} {ledger : Ledger} {route : Route}
  {user : AccountView}

/-- The run lemma: the hop loop of a parsed route carries what one hop keeps. -/
theorem hopLoop_sound {supply : Nat} (bound : supply ≤ maxSupply)
    (parsed : parseRoute payload = .ok route)
    (enough : 1 + 2 * route.hopCount.toNat ≤ accounts.length)
    (apart : ∀ i < route.hopCount.toNat, ∀ pool, accounts[2 + 2 * i]? = some pool →
      pool.address ≠ user.address) {m : Machine} (sound : Sound supply m) :
    (Exec.countUp (hopStep venue accounts route user) route.hopCount.toNat 0
      route.initialAmount).Meets m (fun _ => Sound supply) Stopped := by
  obtain ⟨accepted, routeExact⟩ := parseRoute_ok_iff.mp parsed
  have countBound : route.hopCount.toNat < 256 := route.hopCount.toNat_lt
  let inv : Nat → UInt64 → Machine → Prop := fun _ _ => Sound supply
  have round : ∀ hop inAmount t, hop < route.hopCount.toNat → inv hop inAmount t →
      (hopStep venue accounts route user hop inAmount).Meets t (inv (hop + 1)) Stopped := by
    intro hop inAmount t inLoop kept
    have programFound : accounts[1 + 2 * hop]? = some accounts[1 + 2 * hop] :=
      List.getElem?_eq_getElem (by omega)
    have poolFound : accounts[2 + 2 * hop]? = some accounts[2 + 2 * hop] :=
      List.getElem?_eq_getElem (by omega)
    obtain ⟨rate, rateRead⟩ : ∃ rate, hopRateWith 8 route.rates hop = .ok rate := by
      rw [routeExact] at inLoop ⊢
      exact hopRate_decoded accepted inLoop
    refine Exec.Meets.congr ?_ (hopStep_run (by omega) programFound poolFound t)
    exact checkedHop_sound bound rateRead (apart hop inLoop _ poolFound) kept
  exact Exec.countUp_meets round _ 0 _ m (Nat.zero_add _) sound

theorem processExecuteRoute_sound (bound : ledger.total ≤ maxSupply)
    (apart : PoolsApart accounts (1 :: payload)) :
    (processExecuteRoute venue accounts payload).Meets (Machine.start ledger)
      (fun _ => Sound ledger.total) Stopped := by
  have start : Sound ledger.total (Machine.start ledger) := ⟨rfl, by simp [Machine.start]⟩
  have harmless : ∀ abort, abort ≠ .error .arithmeticOverflow →
      Stopped abort (Machine.start ledger) := by
    intro abort other
    exact ⟨start.safe, fun overflow => absurd overflow other⟩
  cases parsed : parseRoute payload with
  | error abort =>
      apply Exec.meets_of_error (processExecuteRoute_unparsed parsed _)
      apply harmless
      rw [parseRoute_error parsed]
      simp
  | ok route =>
      by_cases enough : 1 + 2 * route.hopCount.toNat ≤ accounts.length
      · have inside : 0 < accounts.length := by omega
        obtain ⟨user, userFound⟩ : ∃ user, accounts[0]? = some user :=
          ⟨_, List.getElem?_eq_getElem inside⟩
        have pools := apart payload route _ rfl parsed userFound
        refine Exec.Meets.congr ?_ (processExecuteRoute_run parsed enough userFound _)
        rw [Exec.meets_bind, ensure, Exec.meets_require]
        refine ⟨fun _ => ?_, fun _ => harmless _ (by simp)⟩
        rw [Exec.meets_bind]
        refine (hopLoop_sound bound parsed enough pools start).mono ?_ fun _ _ stopped => stopped
        intro totalOut m sound
        rw [ensure, Exec.meets_require]
        exact ⟨fun _ => sound, fun _ => ⟨sound.safe, by simp⟩⟩
      · apply Exec.meets_of_error (processExecuteRoute_short parsed (by omega) _)
        exact harmless _ (by simp)

theorem processInstruction_sound {programId : Address} {data : List UInt8}
    (bound : ledger.total ≤ maxSupply) (apart : PoolsApart accounts data) :
    (processInstruction venue programId accounts data).Meets (Machine.start ledger)
      (fun _ => Sound ledger.total) Stopped := by
  by_cases executes : data.head? = some 1
  · obtain ⟨payload, rfl⟩ : ∃ payload, data = 1 :: payload := List.head?_eq_some_iff.mp executes
    exact (processExecuteRoute_sound bound apart).congr (processInstruction_execute _)
  · apply Exec.meets_of_error (processInstruction_unknown executes _)
    exact ⟨by simp [Machine.start], by simp⟩

end Routes

section Sequences

variable (programId : Address)

structure RouteSafe (ledger : Ledger) (accounts : List AccountView) (data : List UInt8) :
    Prop where
  total : ∀ m, (processInstruction venue programId accounts data).run (Machine.start ledger) =
    (.ok (), m) → m.ledger.total = ledger.total
  calls : ∀ record ∈ ((processInstruction venue programId accounts data).run
    (Machine.start ledger)).2.cpis, Safe record
  overflow : ((processInstruction venue programId accounts data).run (Machine.start ledger)).1 =
    .error (.error .arithmeticOverflow) → ∃ record pool user rate amount,
      ((processInstruction venue programId accounts data).run
        (Machine.start ledger)).2.cpis.getLast? = some record ∧
      SafeCall pool user rate amount record ∧
      MockAmm.swapOut amount rate.1 rate.2 = .error (.error .arithmeticOverflow)

theorem routeSafe {ledger : Ledger} {accounts : List AccountView} {data : List UInt8}
    (bound : ledger.total ≤ maxSupply) (apart : PoolsApart accounts data) :
    RouteSafe programId ledger accounts data := by
  have sound : (processInstruction venue programId accounts data).Meets (Machine.start ledger)
      (fun _ => Sound ledger.total) Stopped := processInstruction_sound bound apart
  refine ⟨?_, ?_, ?_⟩
  · intro m ok
    exact (sound.good_of_ok ok).total
  · intro record issued
    cases ended : (processInstruction venue programId accounts data).run (Machine.start ledger) with
    | mk result m =>
        rw [ended] at issued
        cases result with
        | ok returned => exact (sound.good_of_ok ended).safe record issued
        | error abort => exact (sound.bad_of_error ended).safe record issued
  · intro stopped
    obtain ⟨safe, overflow⟩ := sound.bad_of_error (Exec.run_eq_of_fst stopped)
    obtain ⟨record, last, failed⟩ := overflow rfl
    obtain ⟨pool, user, rate, amount, call⟩ := safe record (List.mem_of_getLast? last)
    exact ⟨record, pool, user, rate, amount, last, call, call.overflow failed⟩

theorem submit_total {ledger : Ledger} {transaction : List AccountView × List UInt8}
    (bound : ledger.total ≤ maxSupply) (apart : PoolsApart transaction.1 transaction.2) :
    (submit (processInstruction venue programId) ledger transaction).total = ledger.total := by
  rcases submit_cases (processInstruction venue programId) ledger transaction with
    kept | ⟨m, ok, committed⟩
  · rw [kept]
  · rw [committed]
    exact (routeSafe programId bound apart).total m ok

theorem runAll_total {ledger : Ledger} (bound : ledger.total ≤ maxSupply)
    (transactions : List (List AccountView × List UInt8))
    (apart : ∀ transaction ∈ transactions, PoolsApart transaction.1 transaction.2) :
    (Transactions.runAll (submit (processInstruction venue programId)) ledger
      transactions).total = ledger.total := by
  let allowed : List AccountView × List UInt8 → Prop := fun transaction =>
    PoolsApart transaction.1 transaction.2
  have preserves : ∀ current transaction, allowed transaction → current.total = ledger.total →
      (submit (processInstruction venue programId) current transaction).total = ledger.total := by
    intro current transaction routeApart total
    rw [submit_total programId (by rw [total]; exact bound) routeApart, total]
  exact Transactions.runAll_invariant preserves transactions ledger apart rfl

end Sequences

/-- Over any sequence of routes on a ledger of at most `2^63 - 1` lamports the
total is preserved, every call ever issued is safe, and a route that ends in
`ArithmeticOverflow` ended in a call that overflowed in its quotient. -/
theorem routes_overflow_safe (programId : Address) (ledger : Ledger)
    (bound : ledger.total ≤ 2 ^ 63 - 1) (transactions : List (List AccountView × List UInt8))
    (apart : ∀ transaction ∈ transactions, PoolsApart transaction.1 transaction.2) :
    let execute := submit (processInstruction (calleeOf MockAmm.processInstruction) programId)
    (Transactions.runAll execute ledger transactions).total = ledger.total ∧
      ∀ done next later, transactions = done ++ next :: later →
        (Transactions.runAll execute ledger done).total = ledger.total ∧
          RouteSafe programId (Transactions.runAll execute ledger done) next.1 next.2 := by
  intro execute
  refine ⟨runAll_total programId bound transactions apart, ?_⟩
  intro done next later split
  have doneApart : ∀ transaction ∈ done, PoolsApart transaction.1 transaction.2 := by
    intro transaction member
    exact apart transaction (by rw [split]; simp [member])
  have total := runAll_total programId bound done doneApart
  refine ⟨total, routeSafe programId ?_ (apart next (by rw [split]; simp))⟩
  exact le_of_eq_of_le total bound

theorem routes_overflow_safe_two_hops :
    let execute := submit (processInstruction (calleeOf MockAmm.processInstruction) fun _ => 0xB2)
    let row := (RouterBench.twoHopUser :: RouterBench.twoHopPairs, 1 :: RouterBench.twoHopPayload)
    (Transactions.runAll execute RouterBench.twoHopLedger [row, row]).total =
      RouterBench.twoHopLedger.total := by
  intro execute row
  have apart : ∀ transaction ∈ [row, row], PoolsApart transaction.1 transaction.2 := by
    intro transaction member
    obtain rfl : transaction = row := by simpa using member
    exact RouterBench.twoHop_apart
  exact (routes_overflow_safe (fun _ => 0xB2) RouterBench.twoHopLedger RouterBench.twoHop_total
    [row, row] apart).1

end HopperBench.OverflowSafety
