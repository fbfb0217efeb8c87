import HopperBench.Router.Refinement

/-!
# The runner's check of one row

The runner executes a route in the test harness and then compares what is left
with its own arithmetic: the user's start minus the initial amount plus the last
output, and for every pool its start plus what the hop put in minus what it took
out.  The expressions are plain `u64` ones.  On a fixture no two hops share a
pool, so the checks the programs made on the way keep all of them in range.
-/

set_option autoImplicit false

namespace HopperBench.RouteRun

open StoppingRun CheckedWord HopperBench.Solana HopperBench.RouteWire HopperBench.RouterBench

structure ProgramSpec where
  framework : String
  programId : Address

/-- Why a row gives no number.  `wrapped` marks a plain `u64` expression whose
value leaves its type. -/
inductive RowFailure where
  | failed (message : String)
  | wrapped
deriving DecidableEq

def plainAdd (a b : UInt64) : Except RowFailure UInt64 :=
  match checkedAdd a b with
  | some sum => .ok sum
  | none => .error .wrapped

def plainSub (a b : UInt64) : Except RowFailure UInt64 :=
  match checkedSub a b with
  | some rest => .ok rest
  | none => .error .wrapped

structure InstructionResult where
  programResult : Except Abort Unit
  resultingAccounts : List (Address × Account)
  computeUnitsConsumed : UInt64

/-- What the test harness brings along: the account of a loaded program, the
compute meter, and how results and addresses are printed. -/
structure Mollusk where
  loaderAccount : Address → Account
  computeUnits : InstructionView → List (Address × Account) → UInt64
  showResult : Except Abort Unit → String
  showAddress : Address → String

/-- The harness runs the instruction on the given accounts and rolls a failed
run back. -/
def Mollusk.processInstruction (mollusk : Mollusk)
    (router : Address → List AccountView → List UInt8 → Program Unit)
    (instruction : InstructionView) (accounts : List (Address × Account)) : InstructionResult :=
  let views := instruction.accounts.map InstructionAccount.view
  let run := (router instruction.programId views instruction.data).run
    (Machine.start (ledgerOf accounts))
  let final := submit (router instruction.programId) (ledgerOf accounts) (views, instruction.data)
  { programResult := run.1
    resultingAccounts := accounts.map fun entry => (entry.1, final entry.1)
    computeUnitsConsumed := mollusk.computeUnits instruction accounts }

def lamportsFor (mollusk : Mollusk) (accounts : List (Address × Account)) (key : Address) :
    Except RowFailure UInt64 :=
  match accounts.find? fun entry => entry.1 = key with
  | some entry => .ok entry.2.lamports
  | none => .error (.failed ("missing resulting account " ++ mollusk.showAddress key))

/-! ## One row -/

/-- `"{framework} swap_{hops}hop "` -/
def rowLabel (spec : ProgramSpec) (routeCase : RouteCase) : String :=
  spec.framework ++ " swap_" ++ toString routeCase.rates.length ++ "hop "

/-- The loop over the pairs of the rate fold, from hop `hop` on. -/
def checkPools (mollusk : Mollusk) (spec : ProgramSpec) (routeCase : RouteCase) (seed : Fin 8)
    (resulting : List (Address × Account)) : Nat → List (UInt64 × UInt64) →
      Except RowFailure Unit
  | _, [] => .ok ()
  | hop, (amountIn, amountOut) :: rest => do
      let poolAfter ← lamportsFor mollusk resulting (poolAddress seed hop)
      let credited ← plainAdd poolLamports amountIn
      let expectedPool ← plainSub credited amountOut
      if poolAfter ≠ expectedPool then
        .error (.failed (rowLabel spec routeCase ++ "pool " ++ toString hop ++
          " lamports mismatch: expected " ++ toString expectedPool ++ ", got " ++
          toString poolAfter))
      else
        checkPools mollusk spec routeCase seed resulting (hop + 1) rest

def checkRow (mollusk : Mollusk) (spec : ProgramSpec) (routeCase : RouteCase) (seed : Fin 8)
    (resulting : List (Address × Account)) : Except RowFailure Unit := do
  let hops ← (expectedHops initialAmount routeCase.rates).mapError .failed
  match hops.getLast? with
  | none => .error (.failed "route case has no hops")
  | some last =>
      let finalOut := last.2
      if finalOut ≠ routeCase.expectedOut then
        .error (.failed ("route case table is inconsistent: computed final out " ++
          toString finalOut ++ ", expected " ++ toString routeCase.expectedOut))
      else
        let userAfter ← lamportsFor mollusk resulting (sharedUser seed)
        let kept ← plainSub userLamports initialAmount
        let expectedUser ← plainAdd kept finalOut
        if userAfter ≠ expectedUser then
          .error (.failed (rowLabel spec routeCase ++ "user lamports mismatch: expected " ++
            toString expectedUser ++ ", got " ++ toString userAfter))
        else
          checkPools mollusk spec routeCase seed resulting 0 hops

def Mollusk.fixture (mollusk : Mollusk) (spec : ProgramSpec) (routeCase : RouteCase)
    (seed : Fin 8) : InstructionView × List (Address × Account) :=
  routeFixture spec.programId (mollusk.loaderAccount RouterBench.mockAmmProgramId) routeCase seed

def runRouteCase (mollusk : Mollusk)
    (router : Address → List AccountView → List UInt8 → Program Unit) (spec : ProgramSpec)
    (routeCase : RouteCase) (seed : Fin 8) : Except RowFailure UInt64 :=
  let fixture := mollusk.fixture spec routeCase seed
  let result := mollusk.processInstruction router fixture.1 fixture.2
  match result.programResult with
  | .error _ =>
      .error (.failed (rowLabel spec routeCase ++ "failed: " ++
        mollusk.showResult result.programResult))
  | .ok _ => do
      checkRow mollusk spec routeCase seed result.resultingAccounts
      return result.computeUnitsConsumed

/-- The router under test, with the venue as the program it calls. -/
def pinocchioRouter : Address → List AccountView → List UInt8 → Program Unit :=
  PinocchioRouter.processInstruction (calleeOf MockAmm.processInstruction)

theorem plainAdd_of_fits {a b : UInt64} (fits : a.toNat + b.toNat < 2 ^ 64) :
    plainAdd a b = .ok (a + b) := by
  rw [plainAdd, checkedAdd_eq_some_add.mpr ⟨fits, rfl⟩]

theorem plainSub_of_le {a b : UInt64} (covers : b.toNat ≤ a.toNat) :
    plainSub a b = .ok (a - b) := by
  rw [plainSub, checkedSub, if_pos covers]

section Fixture

variable {programId : Address} {loaded : Account} {routeCase : RouteCase} {seed : Fin 8}

/-- Every item of `xs` stands as a pair in the list of pairs. -/
theorem getElem?_flatMap_pair {A B : Type} (f g : A → B) : ∀ (xs : List A) (i : Nat),
    (xs.flatMap fun x => [f x, g x])[2 * i]? = xs[i]?.map f ∧
      (xs.flatMap fun x => [f x, g x])[2 * i + 1]? = xs[i]?.map g := by
  intro xs
  induction xs with
  | nil => intro i; simp
  | cons x rest ih =>
      intro i
      cases i with
      | zero => exact ⟨rfl, rfl⟩
      | succ i =>
          obtain ⟨first, second⟩ := ih i
          rw [List.flatMap_cons, List.getElem?_cons_succ, ← first, ← second]
          exact ⟨rfl, rfl⟩

theorem fixture_user : ((routeFixture programId loaded routeCase seed).1.accounts.map
    InstructionAccount.view)[0]? = some ⟨sharedUser seed, false, true⟩ := rfl

theorem fixture_pool {i : Nat} (inside : i < routeCase.rates.length) :
    ((routeFixture programId loaded routeCase seed).1.accounts.map
      InstructionAccount.view)[2 + 2 * i]? = some ⟨poolAddress seed i, false, true⟩ := by
  have shift : 2 + 2 * i = (2 * i + 1) + 1 := by omega
  rw [shift, List.getElem?_map, routeFixture]
  simp only [List.getElem?_cons_succ, (getElem?_flatMap_pair _ _ _ _).2, List.getElem?_range inside,
    Option.map_some]
  rfl

theorem poolAddress_ne_sharedUser : ∀ (seed : Fin 8), ∀ hop < 3,
    poolAddress seed hop ≠ sharedUser seed := by decide

theorem poolAddress_ne_mockAmm : ∀ (seed : Fin 8), ∀ hop < 3,
    poolAddress seed hop ≠ RouterBench.mockAmmProgramId := by decide

theorem poolAddress_injective : ∀ (seed : Fin 8), ∀ i < 3, ∀ j < 3,
    poolAddress seed i = poolAddress seed j → i = j := by decide

theorem find_listed {accounts : List (Address × Account)} {a : Address}
    (listed : a ∈ accounts.map Prod.fst) :
    ∃ entry, accounts.find? (fun entry => entry.1 = a) = some entry ∧ entry ∈ accounts ∧
      entry.1 = a := by
  obtain ⟨entry, member, rfl⟩ := List.mem_map.mp listed
  obtain ⟨found, isFound⟩ := Option.isSome_iff_exists.mp (List.find?_isSome.mpr
    (⟨entry, member, decide_eq_true rfl⟩ : ∃ other ∈ accounts, decide (other.1 = entry.1) = true))
  exact ⟨found, isFound, List.mem_of_find?_eq_some isFound, by simpa using List.find?_some isFound⟩

theorem sharedUser_mem : sharedUser seed ∈
    (routeFixture programId loaded routeCase seed).2.map Prod.fst := by
  simp [routeFixture]

theorem poolAddress_mem {i : Nat} (inside : i < routeCase.rates.length) :
    poolAddress seed i ∈ (routeFixture programId loaded routeCase seed).2.map Prod.fst := by
  have pool : fixturePool seed i ∈ (List.range routeCase.rates.length).map (fixturePool seed) :=
    List.mem_map_of_mem (List.mem_range.mpr inside)
  exact List.mem_map_of_mem (List.mem_cons_of_mem _ (List.mem_cons_of_mem _ pool))

theorem fixture_userLamports : (ledgerOf (routeFixture programId loaded routeCase seed).2).balances
    (sharedUser seed) = 10000000000 := by
  simp [Ledger.balances, ledgerOf, routeFixture, userLamports]

theorem fixture_poolLamports {i : Nat} (inside : i < routeCase.rates.length) (few : i < 3) :
    (ledgerOf (routeFixture programId loaded routeCase seed).2).balances (poolAddress seed i) =
      100000000000 := by
  have notUser := (poolAddress_ne_sharedUser seed i few).symm
  have notVenue := (poolAddress_ne_mockAmm seed i few).symm
  have listed : poolAddress seed i ∈
      ((List.range routeCase.rates.length).map (fixturePool seed)).map Prod.fst :=
    List.mem_map_of_mem (List.mem_map_of_mem (List.mem_range.mpr inside))
  obtain ⟨entry, found, member, _⟩ := find_listed listed
  obtain ⟨hop, _, rfl⟩ := List.mem_map.mp member
  simp only [Ledger.balances, ledgerOf, routeFixture, List.find?_cons, notUser, notVenue,
    decide_false, found]
  rfl

end Fixture

theorem lamportsFor_resulting {mollusk : Mollusk} {accounts : List (Address × Account)}
    {final : Ledger} {a : Address} (listed : a ∈ accounts.map Prod.fst) :
    lamportsFor mollusk (accounts.map fun entry => (entry.1, final entry.1)) a =
      .ok (final a).lamports := by
  obtain ⟨entry, found, _, same⟩ := find_listed listed
  have resulting : (accounts.map fun entry => (entry.1, final entry.1)).find?
      (fun entry => entry.1 = a) = some (a, final a) := by
    have composed : ((fun other : Address × Account => decide (other.1 = a)) ∘
        fun entry : Address × Account => (entry.1, final entry.1)) =
          fun other => decide (other.1 = a) := rfl
    rw [List.find?_map, composed, found, Option.map_some, same]
  rw [lamportsFor, resulting]

/-! ## What a successful route leaves of a fixture -/

/-- The ends of a row's route: the fold of its rates, the user's balance, and
every pool's. -/
structure RowEnd (routeCase : RouteCase) (seed : Fin 8) (hops : List (UInt64 × UInt64))
    (out : UInt64) (final : Ledger) : Prop where
  folded : expectedHops initialAmount routeCase.rates = .ok hops
  lastOut : hops.getLast?.map Prod.snd = some out
  hopCount : hops.length = routeCase.rates.length
  userEnd : final.balances (sharedUser seed) = 9000000000 + out.toNat
  poolRoom : ∀ i (inside : i < hops.length), 100000000000 + hops[i].1.toNat < 2 ^ 64
  poolEnd : ∀ i (inside : i < hops.length),
    final.balances (poolAddress seed i) + hops[i].2.toNat = 100000000000 + hops[i].1.toNat

section Row

variable {spec : ProgramSpec} {loaded : Account} {routeCase : RouteCase} {seed : Fin 8}

theorem fixture_data : (routeFixture spec.programId loaded routeCase seed).1.data =
    1 :: (executeRouteData routeCase.minOut initialAmount routeCase.rates).drop 1 := by
  simp only [routeFixture, executeRouteData_eq, List.drop_one, List.tail_cons]

theorem fixture_apart : PinocchioRouter.PoolsApart
    ((routeFixture spec.programId loaded routeCase seed).1.accounts.map InstructionAccount.view)
    (1 :: (executeRouteData routeCase.minOut initialAmount routeCase.rates).drop 1) := by
  intro payload route user same parsed userFound i inLoop pool found
  obtain rfl := List.tail_eq_of_cons_eq same
  obtain ⟨_, few⟩ := (routeGrammar_shared.accepts _ _ _).mp ⟨route, parsed⟩
  obtain ⟨_, hopCount, _⟩ := routeGrammar_shared.decodes _ _ _ route parsed
  rw [fixture_user] at userFound
  rw [fixture_pool (by omega)] at found
  cases userFound
  cases found
  exact poolAddress_ne_sharedUser seed i (by omega)

/-- The views and pairs of a feasible row are those of its fixture. -/
structure RowRoute (routeCase : RouteCase) (seed : Fin 8) (route : Route) (user : AccountView)
    (pools : List AccountView) (rates : List (UInt32 × UInt32)) : Prop where
  few : routeCase.rates.length ≤ 3
  userExact : user.address = sharedUser seed
  initialExact : route.initialAmount = initialAmount
  ratesExact : rates = routeCase.rates
  poolsExact : pools.map AccountView.address =
    (List.range routeCase.rates.length).map (poolAddress seed)

theorem rowRoute_of_feasible {ledger : Ledger} {route : Route} {user : AccountView}
    {pools : List AccountView} {rates : List (UInt32 × UInt32)} {hops : List (UInt64 × UInt64)}
    {out : UInt64}
    (feasible : Refinement.Feasible
      ((routeFixture spec.programId loaded routeCase seed).1.accounts.map InstructionAccount.view)
      ((executeRouteData routeCase.minOut initialAmount routeCase.rates).drop 1) ledger route user
      pools rates hops out) : RowRoute routeCase seed route user pools rates := by
  obtain ⟨_, few⟩ := (routeGrammar_shared.accepts _ _ _).mp ⟨route, feasible.parsed⟩
  obtain ⟨_, hopCount, initialExact, ratesRead⟩ :=
    routeGrammar_shared.decodes _ _ _ route feasible.parsed
  have rateCount := feasible.rateCount
  have poolCount := feasible.poolCount
  have userFound := feasible.userFound
  rw [fixture_user] at userFound
  refine ⟨few, by cases userFound; rfl, initialExact, ?_, ?_⟩
  · apply List.ext_getElem
    · omega
    · intro i inRates inCase
      exact Except.ok.inj ((feasible.ratesRead i inRates).symm.trans (ratesRead i inCase))
  · apply List.ext_getElem
    · rw [List.length_map, List.length_map, List.length_range]
      omega
    · intro i inPools _
      rw [List.length_map] at inPools
      have found := feasible.poolsFound i inPools
      rw [fixture_pool (by omega)] at found
      rw [List.getElem_map, List.getElem_map, List.getElem_range, ← Option.some.inj found]

theorem rowLegs_pools {pools : List AccountView} {hops : List (UInt64 × UInt64)}
    (poolsExact : pools.map AccountView.address =
      (List.range routeCase.rates.length).map (poolAddress seed))
    (hopCount : hops.length = routeCase.rates.length) :
    (Refinement.routeLegs pools hops).map Exchanges.Leg.pool =
      (List.range routeCase.rates.length).map (poolAddress seed) := by
  have poolCount : pools.length = routeCase.rates.length := by
    have lengths := congrArg List.length poolsExact
    simpa using lengths
  rw [← poolsExact]
  apply List.ext_getElem
  · simp [Refinement.routeLegs, poolCount, hopCount]
  · intro i inLegs inPools
    simp [Refinement.routeLegs]

theorem rowPools_nodup (few : routeCase.rates.length ≤ 3) :
    ((List.range routeCase.rates.length).map (poolAddress seed)).Nodup := by
  apply List.Nodup.map_on _ List.nodup_range
  intro i inRange j inRange' same
  rw [List.mem_range] at inRange inRange'
  exact poolAddress_injective seed i (by omega) j (by omega) same

theorem rowEnd_of_feasible {route : Route} {user : AccountView} {pools : List AccountView}
    {rates : List (UInt32 × UInt32)} {hops : List (UInt64 × UInt64)} {out : UInt64} {final : Ledger}
    (feasible : Refinement.Feasible
      ((routeFixture spec.programId loaded routeCase seed).1.accounts.map InstructionAccount.view)
      ((executeRouteData routeCase.minOut initialAmount routeCase.rates).drop 1)
      (ledgerOf (routeFixture spec.programId loaded routeCase seed).2) route user pools rates hops
      out)
    (outcome : Refinement.Outcome (ledgerOf (routeFixture spec.programId loaded routeCase seed).2)
      final route user pools hops out) : RowEnd routeCase seed hops out final := by
  obtain ⟨few, userExact, initialExact, ratesExact, poolsExact⟩ := rowRoute_of_feasible feasible
  have folded := feasible.folded
  rw [initialExact, ratesExact] at folded
  have hopCount : hops.length = routeCase.rates.length :=
    Refinement.folds_length _ _ _ (expectedHops_eq_ok.mp folded)
  have legPools : (Refinement.routeLegs pools hops).map Exchanges.Leg.pool = _ :=
    rowLegs_pools poolsExact hopCount
  have distinct : ((Refinement.routeLegs pools hops).map Exchanges.Leg.pool).Nodup := by
    rw [legPools]
    exact rowPools_nodup few
  have legsApart : ∀ leg ∈ Refinement.routeLegs pools hops, leg.pool ≠ sharedUser seed := by
    intro leg member
    have pool : leg.pool ∈ (List.range routeCase.rates.length).map (poolAddress seed) := by
      rw [← legPools]
      exact List.mem_map_of_mem member
    obtain ⟨i, inRange, poolExact⟩ := List.mem_map.mp pool
    rw [List.mem_range] at inRange
    rw [← poolExact]
    exact poolAddress_ne_sharedUser seed i (by omega)
  have replayable := feasible.replayable
  rw [userExact] at replayable
  -- hop `i` is the only leg of pool `i`
  have legOf : ∀ i (inside : i < hops.length),
      Venue.leg (poolAddress seed i) hops[i].1 hops[i].2 ∈ Refinement.routeLegs pools hops := by
    intro i inside
    have poolCount : pools.length = hops.length := by
      have lengths := congrArg List.length poolsExact
      simpa [hopCount] using lengths
    have inPools : i < pools.length := by omega
    have poolAt : pools[i].address = poolAddress seed i := by
      have read := List.getElem_of_eq poolsExact (by rw [List.length_map]; exact inPools)
      simpa using read
    refine List.mem_iff_getElem.mpr ⟨i, by simp [Refinement.routeLegs, poolCount, inside], ?_⟩
    simp only [Refinement.routeLegs, List.getElem_zipWith, poolAt]
  refine ⟨folded, feasible.lastOut, hopCount, ?_, ?_, ?_⟩
  · have userEnd := outcome.userEnd
    rw [userExact, fixture_userLamports, initialExact] at userEnd
    have started : initialAmount.toNat = 1000000000 := rfl
    omega
  · intro i inside
    have room := Exchanges.room_of_nodup _ _ legsApart distinct replayable (legOf i inside)
    rw [Venue.leg_pool, fixture_poolLamports (by omega) (by omega)] at room
    exact room
  · intro i inside
    have notUser : poolAddress seed i ≠ user.address := by
      rw [userExact]
      exact poolAddress_ne_sharedUser seed i (by omega)
    have paid : Exchanges.paidTo (poolAddress seed i) (Refinement.routeLegs pools hops) =
        hops[i].1.toNat := Exchanges.paidTo_of_nodup distinct (legOf i inside)
    have received : Exchanges.receivedFrom (poolAddress seed i) (Refinement.routeLegs pools hops) =
        hops[i].2.toNat := Exchanges.receivedFrom_of_nodup distinct (legOf i inside)
    have poolEnd := outcome.poolEnd (poolAddress seed i) notUser
    rw [fixture_poolLamports (by omega) (by omega), paid, received] at poolEnd
    omega

theorem rowEnd_of_ok {final : Machine}
    (ok : (pinocchioRouter spec.programId
      ((routeFixture spec.programId loaded routeCase seed).1.accounts.map InstructionAccount.view)
      (routeFixture spec.programId loaded routeCase seed).1.data).run
        (Machine.start (ledgerOf (routeFixture spec.programId loaded routeCase seed).2)) =
          (.ok (), final)) :
    ∃ hops out, RowEnd routeCase seed hops out final.ledger := by
  rw [fixture_data] at ok
  obtain ⟨payload, same, executed⟩ := PinocchioRouter.processInstruction_eq_ok.mp ok
  obtain rfl := List.tail_eq_of_cons_eq same
  obtain ⟨route, user, pools, rates, hops, out, feasible, outcome⟩ :=
    Refinement.feasible_of_ok fixture_apart executed
  exact ⟨hops, out, rowEnd_of_feasible feasible outcome⟩

end Row

section Checks

variable {mollusk : Mollusk} {spec : ProgramSpec} {routeCase : RouteCase} {seed : Fin 8}
  {resulting : List (Address × Account)} {final : Ledger}

theorem checkPools_ok {all : List (UInt64 × UInt64)}
    (reads : ∀ i < all.length, lamportsFor mollusk resulting (poolAddress seed i) =
      .ok (final (poolAddress seed i)).lamports)
    (room : ∀ i (inside : i < all.length), 100000000000 + all[i].1.toNat < 2 ^ 64)
    (ends : ∀ i (inside : i < all.length),
      final.balances (poolAddress seed i) + all[i].2.toNat = 100000000000 + all[i].1.toNat) :
    ∀ (hops : List (UInt64 × UInt64)) (hop : Nat), all.drop hop = hops →
      checkPools mollusk spec routeCase seed resulting hop hops = .ok () := by
  intro hops
  induction hops with
  | nil => intro hop _; rfl
  | cons pair rest ih =>
      intro hop left
      have inside : hop < all.length := by
        have lengths := congrArg List.length left
        rw [List.length_drop, List.length_cons] at lengths
        omega
      rw [List.drop_eq_getElem_cons inside, List.cons.injEq] at left
      obtain ⟨pairExact, restLeft⟩ := left
      subst pairExact
      have started : poolLamports.toNat = 100000000000 := rfl
      have poolRoom := room hop inside
      have poolEnd := ends hop inside
      have credit : plainAdd poolLamports all[hop].1 = .ok (poolLamports + all[hop].1) :=
        plainAdd_of_fits (by rw [started]; exact poolRoom)
      have credited : (poolLamports + all[hop].1).toNat = 100000000000 + all[hop].1.toNat := by
        rw [UInt64.toNat_add, started, Nat.mod_eq_of_lt poolRoom]
      have covers : all[hop].2.toNat ≤ (poolLamports + all[hop].1).toNat := by omega
      have debit := plainSub_of_le covers
      have same : (final (poolAddress seed hop)).lamports =
          poolLamports + all[hop].1 - all[hop].2 := by
        rw [← UInt64.toNat_inj, UInt64.toNat_sub_of_le _ _ (UInt64.le_iff_toNat_le.mpr covers),
          credited]
        simp only [Ledger.balances] at poolEnd
        omega
      rw [checkPools, reads hop inside, credit]
      simp only [bind, Except.bind, debit, same, ne_eq, not_true_eq_false, if_false]
      exact ih (hop + 1) restLeft

/-- On what a successful route leaves, a row passes exactly when its table entry
is the last output, and nothing wraps on the way to either answer. -/
theorem checkRow_of_rowEnd {hops : List (UInt64 × UInt64)} {out : UInt64}
    (rowEnd : RowEnd routeCase seed hops out final)
    (userRead : lamportsFor mollusk resulting (sharedUser seed) =
      .ok (final (sharedUser seed)).lamports)
    (poolReads : ∀ i < hops.length, lamportsFor mollusk resulting (poolAddress seed i) =
      .ok (final (poolAddress seed i)).lamports) :
    (out = routeCase.expectedOut → checkRow mollusk spec routeCase seed resulting = .ok ()) ∧
      (out ≠ routeCase.expectedOut →
        ∃ message, checkRow mollusk spec routeCase seed resulting = .error (.failed message)) := by
  obtain ⟨last, lastFound, rfl⟩ := Option.map_eq_some_iff.mp rowEnd.lastOut
  have folded : (expectedHops initialAmount routeCase.rates).mapError RowFailure.failed =
      .ok hops := by
    rw [rowEnd.folded]
    rfl
  have userEnd := rowEnd.userEnd
  have userBound : (final (sharedUser seed)).lamports.toNat < 2 ^ 64 := UInt64.toNat_lt _
  simp only [Ledger.balances] at userEnd
  have debit : plainSub userLamports initialAmount = .ok 9000000000 := by decide +kernel
  have kept : (9000000000 : UInt64).toNat = 9000000000 := rfl
  have credit : plainAdd 9000000000 last.2 = .ok (9000000000 + last.2) :=
    plainAdd_of_fits (by omega)
  have same : (final (sharedUser seed)).lamports = 9000000000 + last.2 := by
    rw [← UInt64.toNat_inj, UInt64.toNat_add, Nat.mod_eq_of_lt (by omega), kept]
    exact userEnd
  have pools : checkPools mollusk spec routeCase seed resulting 0 hops = .ok () :=
    checkPools_ok poolReads rowEnd.poolRoom rowEnd.poolEnd hops 0 List.drop_zero
  unfold checkRow
  simp only [bind, Except.bind, folded, lastFound]
  refine ⟨?_, ?_⟩
  · intro expected
    rw [if_neg (not_not.mpr expected)]
    simp only [userRead, debit, credit, same, ne_eq, not_true_eq_false, if_false, pools]
  · intro unexpected
    rw [if_pos unexpected]
    exact ⟨_, rfl⟩

end Checks

theorem resultingAccounts_of_ok {mollusk : Mollusk}
    {router : Address → List AccountView → List UInt8 → Program Unit}
    {instruction : InstructionView} {accounts : List (Address × Account)} {final : Machine}
    (ok : (router instruction.programId (instruction.accounts.map InstructionAccount.view)
      instruction.data).run (Machine.start (ledgerOf accounts)) = (.ok (), final)) :
    (mollusk.processInstruction router instruction accounts).resultingAccounts =
      accounts.map fun entry => (entry.1, final.ledger entry.1) := by
  have committed : submit (router instruction.programId) (ledgerOf accounts)
      (instruction.accounts.map InstructionAccount.view, instruction.data) = final.ledger :=
    submit_of_ok ok
  simp only [Mollusk.processInstruction, committed]

theorem runRouteCase_of_ok {mollusk : Mollusk} {spec : ProgramSpec} {routeCase : RouteCase}
    {seed : Fin 8}
    (result : (mollusk.processInstruction pinocchioRouter (mollusk.fixture spec routeCase seed).1
      (mollusk.fixture spec routeCase seed).2).programResult = .ok ()) :
    ∃ hops out, expectedHops initialAmount routeCase.rates = .ok hops ∧
      hops.getLast?.map Prod.snd = some out ∧
      (out = routeCase.expectedOut →
        ∃ units, runRouteCase mollusk pinocchioRouter spec routeCase seed = .ok units) ∧
      (out ≠ routeCase.expectedOut → ∃ message,
        runRouteCase mollusk pinocchioRouter spec routeCase seed = .error (.failed message)) := by
  obtain ⟨final, ok⟩ : ∃ final, (pinocchioRouter spec.programId
      ((mollusk.fixture spec routeCase seed).1.accounts.map InstructionAccount.view)
      (mollusk.fixture spec routeCase seed).1.data).run
        (Machine.start (ledgerOf (mollusk.fixture spec routeCase seed).2)) = (.ok (), final) :=
    ⟨_, Exec.run_eq_of_fst result⟩
  obtain ⟨hops, out, rowEnd⟩ := rowEnd_of_ok ok
  obtain ⟨after, resulting⟩ : ∃ after, (mollusk.processInstruction pinocchioRouter
      (mollusk.fixture spec routeCase seed).1
      (mollusk.fixture spec routeCase seed).2).resultingAccounts = after := ⟨_, rfl⟩
  have afterExact : after = (mollusk.fixture spec routeCase seed).2.map fun entry =>
      (entry.1, final.ledger entry.1) := resulting.symm.trans (resultingAccounts_of_ok ok)
  have userRead : lamportsFor mollusk after (sharedUser seed) =
      .ok (final.ledger (sharedUser seed)).lamports := by
    rw [afterExact]
    exact lamportsFor_resulting sharedUser_mem
  have poolReads : ∀ i < hops.length, lamportsFor mollusk after (poolAddress seed i) =
      .ok (final.ledger (poolAddress seed i)).lamports := by
    intro i inside
    rw [rowEnd.hopCount] at inside
    rw [afterExact]
    exact lamportsFor_resulting (poolAddress_mem inside)
  have checked : (out = routeCase.expectedOut →
        checkRow mollusk spec routeCase seed after = .ok ()) ∧
      (out ≠ routeCase.expectedOut →
        ∃ message, checkRow mollusk spec routeCase seed after = .error (.failed message)) :=
    checkRow_of_rowEnd rowEnd userRead poolReads
  refine ⟨hops, out, rowEnd.folded, rowEnd.lastOut, ?_, ?_⟩
  · intro expected
    rw [runRouteCase, result, resulting]
    simp only [checked.1 expected]
    exact ⟨_, rfl⟩
  · intro unexpected
    obtain ⟨message, refused⟩ := checked.2 unexpected
    rw [runRouteCase, result, resulting]
    simp only [refused]
    exact ⟨message, rfl⟩

/-- No plain `u64` expression of a row wraps, and the row is accepted exactly
when its route succeeded and its table entry is the last output of the fold. -/
theorem run_route_case_exact (mollusk : Mollusk) (spec : ProgramSpec) (routeCase : RouteCase)
    (seed : Fin 8) :
    let fixture := mollusk.fixture spec routeCase seed
    let row := runRouteCase mollusk pinocchioRouter spec routeCase seed
    row ≠ .error .wrapped ∧
      ((∃ units, row = .ok units) ↔
        (mollusk.processInstruction pinocchioRouter fixture.1 fixture.2).programResult = .ok () ∧
          ∃ hops, expectedHops initialAmount routeCase.rates = .ok hops ∧
            hops.getLast?.map Prod.snd = some routeCase.expectedOut) := by
  intro fixture row
  cases result : (mollusk.processInstruction pinocchioRouter fixture.1 fixture.2).programResult with
  | error abort =>
      have failed : ∃ message, row = .error (.failed message) := by
        simp only [row, runRouteCase]
        rw [result]
        exact ⟨_, rfl⟩
      obtain ⟨message, rowFailed⟩ := failed
      rw [rowFailed]
      simp
  | ok _ =>
      obtain ⟨hops, out, folded, lastOut, accepts, refuses⟩ := runRouteCase_of_ok result
      by_cases expected : out = routeCase.expectedOut
      · obtain ⟨units, accepted⟩ := accepts expected
        have rowAccepted : row = .ok units := accepted
        rw [rowAccepted, ← expected]
        exact ⟨by simp, iff_of_true ⟨units, rfl⟩ ⟨rfl, hops, folded, lastOut⟩⟩
      · obtain ⟨message, refused⟩ := refuses expected
        have rowRefused : row = .error (.failed message) := refused
        rw [rowRefused]
        refine ⟨by simp, iff_of_false (by simp) ?_⟩
        intro accepted
        obtain ⟨_, hops', folded', lastOut'⟩ := accepted
        obtain rfl : hops = hops' := Except.ok.inj (folded.symm.trans folded')
        exact expected (Option.some.inj (lastOut.symm.trans lastOut'))

def plainMollusk : Mollusk where
  loaderAccount := fun _ => ⟨0, fun _ => 2, []⟩
  computeUnits := fun _ _ => 5000
  showResult := fun _ => "result"
  showAddress := fun _ => "address"

example : (runRouteCase plainMollusk pinocchioRouter ⟨"pinocchio", fun _ => 0xB2⟩
    (swapCases.get ⟨1, by decide⟩) firstSeed).toOption = some 5000 := by decide +kernel

end HopperBench.RouteRun
