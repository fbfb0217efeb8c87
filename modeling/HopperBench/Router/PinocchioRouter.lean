import HopperBench.Router.MeasuredSwap

/-!
# The Pinocchio router

`EXECUTE_ROUTE` walks one to three swap hops.  The account list is checked for
its length up front and then indexed: `[user]`, and for every hop
`[mock_amm_program, pool]`.
-/

set_option autoImplicit false

namespace HopperBench.PinocchioRouter

open StoppingRun HopperBench.Solana HopperBench.RouteWire HopperBench.MeasuredSwap

def mockAmmProgramId : Address := fun _ => 0xAA

def executeRouteDiscriminator : UInt8 := 1

def maxHops : Nat := 3

def routeHeaderLen : Nat := 17

def hopRateLen : Nat := 8

def minOutNotMet : UInt32 := 1

def hopRate (route : Route) (i : Nat) : Except Abort (UInt32 × UInt32) :=
  hopRateWith hopRateLen route.rates i

def parseRoute (data : List UInt8) : Except Abort Route :=
  parseRouteWith routeHeaderLen hopRateLen maxHops data

def encodeSwapData (rateNum rateDen : UInt32) (amount : UInt64) : List UInt8 :=
  encodeSwapWith 0 rateNum rateDen amount

/-- One round of the hop loop: from the amount forwarded into `hop` to the
amount it put out. -/
def hopStep (callee : Callee) (accounts : List AccountView) (route : Route)
    (user : AccountView) (hop : Nat) (inAmount : UInt64) : Program UInt64 := do
  let ammProgram ← Exec.lift (index accounts (1 + 2 * hop))
  let pool ← Exec.lift (index accounts (2 + 2 * hop))
  ensure (ammProgram.address = mockAmmProgramId) .incorrectProgramId
  ensure (pool.isWritable = true) .invalidAccountData
  let rate ← Exec.lift (hopRate route hop)
  let swapData := encodeSwapData rate.1 rate.2 inAmount
  measuredSwap callee ammProgram.address pool user swapData inAmount

def processExecuteRoute (callee : Callee) (accounts : List AccountView) (data : List UInt8) :
    Program Unit := do
  let route ← Exec.lift (parseRoute data)
  let hops := route.hopCount.toNat
  let needed ← Exec.lift (usize (1 + 2 * hops))
  ensure (¬accounts.length < needed) .notEnoughAccountKeys
  let user ← Exec.lift (index accounts 0)
  ensure (user.isWritable = true) .invalidAccountData
  let totalOut ← Exec.countUp (hopStep callee accounts route user) hops 0 route.initialAmount
  ensure (¬totalOut < route.minOut) (.custom minOutNotMet)

def processInstruction (callee : Callee) (_programId : Address) (accounts : List AccountView)
    (data : List UInt8) : Program Unit :=
  match data with
  | [] => Exec.stop (.error .invalidInstructionData)
  | disc :: rest =>
      if disc = executeRouteDiscriminator then processExecuteRoute callee accounts rest
      else Exec.stop (.error .invalidInstructionData)

/-- The pools that `data` asks for are all different from its user. -/
def PoolsApart (accounts : List AccountView) (data : List UInt8) : Prop :=
  ∀ payload route user, data = 1 :: payload → parseRoute payload = .ok route →
    accounts[0]? = some user → ∀ i < route.hopCount.toNat, ∀ pool,
      accounts[2 + 2 * i]? = some pool → pool.address ≠ user.address

/-! ## Specifications -/

theorem parseRoute_ok_iff {data : List UInt8} {route : Route} :
    parseRoute data = .ok route ↔ Accepted data ∧ route = decoded data := parse_ok_iff

theorem parseRoute_error {data : List UInt8} {abort : Abort}
    (rejected : parseRoute data = .error abort) : abort = .error .invalidInstructionData := by
  have everywhere : parseRoute data =
      if Accepted data then .ok (decoded data)
      else .error (.error .invalidInstructionData) := parse_eq data
  rw [everywhere] at rejected
  by_cases accepted : Accepted data
  · rw [if_pos accepted] at rejected
    cases rejected
  · rw [if_neg accepted] at rejected
    exact (Except.error.inj rejected).symm

structure HopAccounts (accounts : List AccountView) (route : Route) (hop : Nat)
    (ammProgram pool : AccountView) (rate : UInt32 × UInt32) : Prop where
  ammProgram_eq : accounts[1 + 2 * hop]? = some ammProgram
  pool_eq : accounts[2 + 2 * hop]? = some pool
  venue : ammProgram.address = mockAmmProgramId
  poolWritable : pool.isWritable = true
  rate_eq : hopRate route hop = .ok rate

/-- The call of hop `hop`: the venue on `[pool, user]`, both writable, with the
hop's rate and some amount. -/
def Issued (accounts : List AccountView) (route : Route) (user : AccountView) (hop : Nat)
    (record : CpiRecord) : Prop :=
  ∃ ammProgram pool rate inAmount, HopAccounts accounts route hop ammProgram pool rate ∧
    record.instruction = swapInstruction mockAmmProgramId pool.address user.address
      (encodeSwapData rate.1 rate.2 inAmount)

section Hop

variable {callee : Callee} {accounts : List AccountView} {route : Route} {user : AccountView}
  {hop : Nat} {inAmount : UInt64}

theorem hopStep_run {ammProgram pool : AccountView} (small : 2 + 2 * hop < 2 ^ 64)
    (programFound : accounts[1 + 2 * hop]? = some ammProgram)
    (poolFound : accounts[2 + 2 * hop]? = some pool) (m : Machine) :
    (hopStep callee accounts route user hop inAmount).run m =
      (checkedHop callee route user ammProgram pool hop inAmount).run m := by
  have programRead : index accounts (1 + 2 * hop) = .ok ammProgram :=
    index_eq_ok.mpr ⟨by omega, programFound⟩
  have poolRead : index accounts (2 + 2 * hop) = .ok pool :=
    index_eq_ok.mpr ⟨small, poolFound⟩
  rw [hopStep, programRead, poolRead]
  apply Exec.Agree.run_eq
  apply Exec.agree_require
  intro venue
  rw [venue]
  exact Exec.agree_refl

theorem hopStep_eq_ok {m n : Machine} {out : UInt64} :
    (hopStep callee accounts route user hop inAmount).run m = (.ok out, n) ↔
      2 + 2 * hop < 2 ^ 64 ∧ ∃ ammProgram pool rate,
        HopAccounts accounts route hop ammProgram pool rate ∧
        (measuredSwap callee mockAmmProgramId pool user
          (encodeSwapData rate.1 rate.2 inAmount) inAmount).run m = (.ok out, n) := by
  simp only [hopStep, Exec.lift_bind_eq_ok, ensure_bind_eq_ok, index_eq_ok]
  constructor
  · intro given
    obtain ⟨ammProgram, ⟨_, programFound⟩, pool, ⟨small, poolFound⟩, venue, writable, rate,
      rateRead, swapped⟩ := given
    rw [venue] at swapped
    exact ⟨small, ammProgram, pool, rate,
      ⟨programFound, poolFound, venue, writable, rateRead⟩, swapped⟩
  · intro given
    obtain ⟨small, ammProgram, pool, rate, read, swapped⟩ := given
    rw [← read.venue] at swapped
    exact ⟨ammProgram, ⟨by omega, read.ammProgram_eq⟩, pool, ⟨small, read.pool_eq⟩, read.venue,
      read.poolWritable, rate, read.rate_eq, swapped⟩

theorem hopStep_issued (hop : Nat) (inAmount : UInt64) (m : Machine)
    (recorded : Recorded (Issued accounts route user) hop m) :
    (hopStep callee accounts route user hop inAmount).Meets m
      (fun _ => Recorded (Issued accounts route user) (hop + 1)) fun _ _ => True := by
  apply Exec.meets_of_ok
  intro out n ok
  obtain ⟨_, ammProgram, pool, rate, read, swapped⟩ := hopStep_eq_ok.mp ok
  obtain ⟨ledger, _, rfl, _⟩ := measuredSwap_eq_ok.mp swapped
  exact recorded.snoc ledger m.writes ⟨ammProgram, pool, rate, inAmount, read, rfl⟩

theorem hopLoop_issued (callee : Callee) (accounts : List AccountView) (route : Route)
    (user : AccountView) (ledger : Ledger) :
    (Exec.countUp (hopStep callee accounts route user) route.hopCount.toNat 0
      route.initialAmount).Meets (Machine.start ledger)
      (fun _ => Recorded (Issued accounts route user) route.hopCount.toNat)
      fun _ _ => True := by
  let inv : Nat → UInt64 → Machine → Prop := fun hop _ => Recorded (Issued accounts route user) hop
  have round : ∀ hop inAmount m, hop < route.hopCount.toNat → inv hop inAmount m →
      (hopStep callee accounts route user hop inAmount).Meets m (inv (hop + 1))
        fun _ _ => True := by
    intro hop inAmount m _ recorded
    exact hopStep_issued hop inAmount m recorded
  exact Exec.countUp_meets round _ _ _ _ (Nat.zero_add _) (recorded_start _ ledger)

theorem hopStep_append (extra : List AccountView) (inside : 2 + 2 * hop < accounts.length)
    (small : hop < 2 ^ 8) (m : Machine) :
    (hopStep callee (accounts ++ extra) route user hop inAmount).run m =
      (hopStep callee accounts route user hop inAmount).run m := by
  have programFound : accounts[1 + 2 * hop]? = some accounts[1 + 2 * hop] :=
    List.getElem?_eq_getElem (by omega)
  have poolFound : accounts[2 + 2 * hop]? = some accounts[2 + 2 * hop] :=
    List.getElem?_eq_getElem inside
  rw [hopStep_run (by omega) programFound poolFound]
  apply hopStep_run (by omega)
  · rw [List.getElem?_append_left (by omega)]
    exact programFound
  · rw [List.getElem?_append_left inside]
    exact poolFound

theorem hopLoop_append (extra : List AccountView)
    (enough : 1 + 2 * route.hopCount.toNat ≤ accounts.length) (m : Machine) :
    (Exec.countUp (hopStep callee (accounts ++ extra) route user) route.hopCount.toNat 0
      route.initialAmount).run m =
      (Exec.countUp (hopStep callee accounts route user) route.hopCount.toNat 0
        route.initialAmount).run m := by
  have countBound : route.hopCount.toNat < 256 := route.hopCount.toNat_lt
  have round : ∀ hop (a b : UInt64) t, hop < route.hopCount.toNat → a = b →
      Exec.Agree Eq (hopStep callee (accounts ++ extra) route user hop a)
        (hopStep callee accounts route user hop b) t := by
    intro hop a b t inLoop same
    subst same
    apply Exec.agree_of_run_eq
    exact hopStep_append extra (by omega) (by omega) t
  exact (Exec.agree_countUp round _ _ _ _ m (Nat.zero_add _) rfl).run_eq

end Hop

section Route

variable {callee : Callee} {accounts : List AccountView} {data : List UInt8}

theorem processExecuteRoute_run {route : Route} {user : AccountView}
    (parsed : parseRoute data = .ok route)
    (enough : 1 + 2 * route.hopCount.toNat ≤ accounts.length)
    (userFound : accounts[0]? = some user) (m : Machine) :
    (processExecuteRoute callee accounts data).run m =
      (ensure (user.isWritable = true) .invalidAccountData >>= fun _ =>
        Exec.countUp (hopStep callee accounts route user) route.hopCount.toNat 0
          route.initialAmount >>= fun totalOut =>
        ensure (¬totalOut < route.minOut) (.custom minOutNotMet)).run m := by
  have countBound : route.hopCount.toNat < 256 := route.hopCount.toNat_lt
  have needed : usize (1 + 2 * route.hopCount.toNat) = .ok (1 + 2 * route.hopCount.toNat) :=
    usize_of_lt (by omega)
  have userRead : index accounts 0 = .ok user := index_eq_ok.mpr ⟨by omega, userFound⟩
  rw [processExecuteRoute, Exec.run_lift_bind_ok parsed, Exec.run_lift_bind_ok needed,
    run_ensure_bind (Nat.not_lt.mpr enough), Exec.run_lift_bind_ok userRead]

/-- The account list is counted before any account is looked at. -/
theorem processExecuteRoute_short {route : Route} (parsed : parseRoute data = .ok route)
    (short : accounts.length < 1 + 2 * route.hopCount.toNat) (m : Machine) :
    (processExecuteRoute callee accounts data).run m =
      (.error (.error .notEnoughAccountKeys), m) := by
  have countBound : route.hopCount.toNat < 256 := route.hopCount.toNat_lt
  have needed : usize (1 + 2 * route.hopCount.toNat) = .ok (1 + 2 * route.hopCount.toNat) :=
    usize_of_lt (by omega)
  rw [processExecuteRoute, Exec.run_lift_bind_ok parsed, Exec.run_lift_bind_ok needed,
    run_ensure_bind_error (not_not.mpr short)]

theorem processExecuteRoute_unparsed {abort : Abort} (unparsed : parseRoute data = .error abort)
    (m : Machine) : (processExecuteRoute callee accounts data).run m = (.error abort, m) := by
  rw [processExecuteRoute, Exec.run_lift_bind_error unparsed]

/-- A route that succeeds parsed, found enough accounts and a writable user,
and its hop loop returned an output at or above the minimum. -/
theorem processExecuteRoute_eq_ok {m n : Machine} {u : Unit} :
    (processExecuteRoute callee accounts data).run m = (.ok u, n) ↔
      ∃ route user totalOut, parseRoute data = .ok route ∧
        1 + 2 * route.hopCount.toNat ≤ accounts.length ∧
        accounts[0]? = some user ∧ user.isWritable = true ∧
        (Exec.countUp (hopStep callee accounts route user) route.hopCount.toNat 0
          route.initialAmount).run m = (.ok totalOut, n) ∧
        route.minOut ≤ totalOut := by
  simp only [processExecuteRoute, Exec.lift_bind_eq_ok, ensure_bind_eq_ok, index_eq_ok, Nat.not_lt]
  simp only [Exec.bind_eq_ok, ensure_eq_ok, UInt64.not_lt]
  constructor
  · intro given
    obtain ⟨route, parsed, needed, neededExact, enough, user, ⟨_, userFound⟩, writable, totalOut, _,
      loop, gate, rfl⟩ := given
    have countBound : route.hopCount.toNat < 256 := route.hopCount.toNat_lt
    rw [usize_of_lt (by omega)] at neededExact
    cases neededExact
    exact ⟨route, user, totalOut, parsed, enough, userFound, writable, loop, gate⟩
  · intro given
    obtain ⟨route, user, totalOut, parsed, enough, userFound, writable, loop, gate⟩ := given
    have countBound : route.hopCount.toNat < 256 := route.hopCount.toNat_lt
    exact ⟨route, parsed, _, usize_of_lt (by omega), enough, user, ⟨by omega, userFound⟩, writable,
      totalOut, n, loop, gate, rfl⟩

theorem processExecuteRoute_append {route : Route} {user : AccountView}
    (extra : List AccountView) (parsed : parseRoute data = .ok route)
    (enough : 1 + 2 * route.hopCount.toNat ≤ accounts.length)
    (userFound : accounts[0]? = some user) (m : Machine) :
    (processExecuteRoute callee (accounts ++ extra) data).run m =
      (processExecuteRoute callee accounts data).run m := by
  have enough' : 1 + 2 * route.hopCount.toNat ≤ (accounts ++ extra).length := by
    rw [List.length_append]
    omega
  have userFound' : (accounts ++ extra)[0]? = some user := by
    rw [List.getElem?_append_left (by omega)]
    exact userFound
  rw [processExecuteRoute_run parsed enough userFound,
    processExecuteRoute_run parsed enough' userFound']
  apply Exec.Agree.run_eq
  apply Exec.agree_require
  intro _
  refine (Exec.agree_of_run_eq (hopLoop_append extra enough m)).bind ?_
  intro totalOut totalOut' t same
  subst same
  exact Exec.agree_refl

theorem processInstruction_execute {programId : Address} {payload : List UInt8} (m : Machine) :
    (processInstruction callee programId accounts (1 :: payload)).run m =
      (processExecuteRoute callee accounts payload).run m := rfl

theorem processInstruction_unknown {programId : Address} (unknown : data.head? ≠ some 1)
    (m : Machine) :
    (processInstruction callee programId accounts data).run m =
      (.error (.error .invalidInstructionData), m) := by
  cases data with
  | nil => rfl
  | cons disc payload =>
      have other : disc ≠ executeRouteDiscriminator := fun same => unknown (by rw [same]; rfl)
      rw [processInstruction, if_neg other, Exec.run_stop]

theorem processInstruction_eq_ok {programId : Address} {m n : Machine} {u : Unit} :
    (processInstruction callee programId accounts data).run m = (.ok u, n) ↔
      ∃ payload, data = 1 :: payload ∧
        (processExecuteRoute callee accounts payload).run m = (.ok u, n) := by
  by_cases executes : data.head? = some 1
  · obtain ⟨payload, rfl⟩ := List.head?_eq_some_iff.mp executes
    simp [processInstruction_execute]
  · rw [processInstruction_unknown executes]
    constructor
    · intro impossible
      cases impossible
    · intro accepted
      obtain ⟨payload, same, _⟩ := accepted
      exact absurd (by rw [same]; rfl) executes

end Route

end HopperBench.PinocchioRouter
