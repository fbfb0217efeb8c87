import HopperBench.Router.MockAmm
import HopperBench.Router.PinocchioRouter
import HopperBench.Router.QuasarRouter

/-!
# The router runner

The host side of the router benchmark: the rate fold it expects a route to
compute, the wire encoding of `EXECUTE_ROUTE`, and the fixture of one
measurement row.  The encoder and the two parsers meet in `RouteGrammar`.
-/

set_option autoImplicit false

namespace HopperBench.RouterBench

open LittleEndian CheckedWord HopperBench.Solana HopperBench.RouteWire

def mockAmmProgramId : Address := fun _ => 0xAA

def executeRouteDiscriminator : UInt8 := 1

def userLamports : UInt64 := 10000000000

def poolLamports : UInt64 := 100000000000

def initialAmount : UInt64 := 1000000000

def sharedUserCases : List UInt8 := [0x11, 0x22, 0x33, 0x44, 0x55, 0x66, 0x77, 0x88]

/-- `expected_out` is read by the runner's own check of a finished route only. -/
structure RouteCase where
  rates : List (UInt32 × UInt32)
  minOut : UInt64
  expectedOut : UInt64

def swapCases : List RouteCase :=
  [⟨[(3, 2)], 1500000000, 1500000000⟩,
    ⟨[(3, 2), (2, 3)], 1000000000, 1000000000⟩,
    ⟨[(3, 2), (2, 3), (2, 1)], 2000000000, 2000000000⟩]

/-! ## Rate fold -/

/-- The loop of `expected_hops`, from the amount forwarded into the next hop and
the pairs pushed so far.  The `u128` product is exact, by
`MockAmm.swapOut_product`. -/
def expectedHopsFrom : UInt64 → List (UInt64 × UInt64) → List (UInt32 × UInt32) →
    Except String (List (UInt64 × UInt64))
  | _, hops, [] => .ok hops
  | amountIn, hops, (num, den) :: rest =>
      if den = 0 then
        .error "route case has a zero rate denominator"
      else
        match narrow (amountIn.toNat * num.toNat / den.toNat) with
        | none => .error "route case rate math overflowed u64"
        | some out => expectedHopsFrom out (hops ++ [(amountIn, out)]) rest

def expectedHops (initial : UInt64) (rates : List (UInt32 × UInt32)) :
    Except String (List (UInt64 × UInt64)) := expectedHopsFrom initial [] rates

/-- The rate fold as a relation: every hop puts out what the venue pays for the
amount forwarded into it. -/
def Folds : UInt64 → List (UInt32 × UInt32) → List (UInt64 × UInt64) → Prop
  | _, [], hops => hops = []
  | amountIn, rate :: rest, hops => ∃ out tail,
      MockAmm.swapOut amountIn rate.1 rate.2 = .ok out ∧ hops = (amountIn, out) :: tail ∧
        Folds out rest tail

theorem expectedHopsFrom_cons {amountIn : UInt64} {done hops : List (UInt64 × UInt64)}
    {rate : UInt32 × UInt32} {rest : List (UInt32 × UInt32)} :
    expectedHopsFrom amountIn done (rate :: rest) = .ok hops ↔
      ∃ out, MockAmm.swapOut amountIn rate.1 rate.2 = .ok out ∧
        expectedHopsFrom out (done ++ [(amountIn, out)]) rest = .ok hops := by
  rw [expectedHopsFrom]
  by_cases zero : rate.2 = 0
  · simp [zero, MockAmm.swapOut_eq_ok]
  · rw [if_neg zero, MockAmm.swapOut_eq amountIn zero]
    cases narrow (amountIn.toNat * rate.1.toNat / rate.2.toNat) <;> simp [okOr]

theorem expectedHopsFrom_eq_ok : ∀ (rates : List (UInt32 × UInt32)) (amountIn : UInt64)
    (done hops : List (UInt64 × UInt64)),
    expectedHopsFrom amountIn done rates = .ok hops ↔
      ∃ tail, hops = done ++ tail ∧ Folds amountIn rates tail := by
  intro rates
  induction rates with
  | nil =>
      intro amountIn done hops
      simp [expectedHopsFrom, Folds, eq_comm]
  | cons rate rest ih =>
      intro amountIn done hops
      rw [expectedHopsFrom_cons]
      constructor
      · intro given
        obtain ⟨out, payout, folded⟩ := given
        obtain ⟨tail, tailExact, folds⟩ := (ih _ _ _).mp folded
        refine ⟨(amountIn, out) :: tail, ?_, out, tail, payout, rfl, folds⟩
        rw [tailExact, List.append_assoc, List.singleton_append]
      · intro folded
        obtain ⟨_, hopsExact, out, tail, payout, tailExact, folds⟩ := folded
        refine ⟨out, payout, (ih _ _ _).mpr ⟨tail, ?_, folds⟩⟩
        rw [hopsExact, tailExact, List.append_assoc, List.singleton_append]

theorem expectedHops_eq_ok {initial : UInt64} {rates : List (UInt32 × UInt32)}
    {hops : List (UInt64 × UInt64)} :
    expectedHops initial rates = .ok hops ↔ Folds initial rates hops := by
  rw [expectedHops, expectedHopsFrom_eq_ok]
  simp

/-! ## Wire encoding -/

def executeRouteData (minOut initialAmount : UInt64) (rates : List (UInt32 × UInt32)) :
    List UInt8 :=
  let data := [executeRouteDiscriminator]
  let data := data ++ List.ofFn (u64Bytes minOut)
  let data := data ++ [UInt8.ofNat rates.length]
  let data := data ++ List.ofFn (u64Bytes initialAmount)
  rates.foldl (fun data rate => data ++ List.ofFn (u32Bytes rate.1) ++ List.ofFn (u32Bytes rate.2))
    data

theorem foldl_rateBlocks (rates : List (UInt32 × UInt32)) : ∀ data : List UInt8,
    rates.foldl (fun data rate =>
      data ++ List.ofFn (u32Bytes rate.1) ++ List.ofFn (u32Bytes rate.2)) data =
        data ++ rateBlocks rates := by
  induction rates with
  | nil => intro data; simp [rateBlocks]
  | cons rate rest ih =>
      intro data
      rw [List.foldl_cons, ih, rateBlocks_cons, rateBlock]
      simp only [List.append_assoc]

theorem executeRouteData_eq (minOut initialAmount : UInt64) (rates : List (UInt32 × UInt32)) :
    executeRouteData minOut initialAmount rates =
      1 :: payload minOut (UInt8.ofNat rates.length) initialAmount rates := by
  simp only [executeRouteData, foldl_rateBlocks, payload, executeRouteDiscriminator]
  simp

/-- The encoder and a parser agree: which encodings are accepted and what they
decode to, and that nothing but encodings is accepted. -/
structure RouteGrammar (parseRoute : List UInt8 → Except Abort Route)
    (hopRate : Route → Nat → Except Abort (UInt32 × UInt32)) : Prop where
  accepts : ∀ minOut initialAmount rates,
    (∃ route, parseRoute ((executeRouteData minOut initialAmount rates).drop 1) = .ok route) ↔
      1 ≤ rates.length ∧ rates.length ≤ 3
  decodes : ∀ minOut initialAmount rates route,
    parseRoute ((executeRouteData minOut initialAmount rates).drop 1) = .ok route →
      route.minOut = minOut ∧ route.hopCount.toNat = rates.length ∧
        route.initialAmount = initialAmount ∧
        ∀ i (inside : i < rates.length), hopRate route i = .ok rates[i]
  encodes : ∀ data route, parseRoute data = .ok route → ∃ rates : List (UInt32 × UInt32),
    rates.length = route.hopCount.toNat ∧
      (∀ i (inside : i < rates.length), hopRate route i = .ok rates[i]) ∧
      1 :: data = executeRouteData route.minOut route.initialAmount rates

theorem hopCount_toNat {rates : List (UInt32 × UInt32)} (few : rates.length ≤ 3) :
    (UInt8.ofNat rates.length).toNat = rates.length := by
  rw [UInt8.toNat_ofNat']
  omega

/-- The hop-count byte wraps at 256 rates, and the exact-length check then
rejects the encoding. -/
theorem accepted_executeRouteData (minOut initialAmount : UInt64)
    (rates : List (UInt32 × UInt32)) :
    Accepted ((executeRouteData minOut initialAmount rates).drop 1) ↔
      1 ≤ rates.length ∧ rates.length ≤ 3 := by
  rw [executeRouteData_eq, List.drop_one, List.tail_cons]
  simp only [Accepted, payload_length, payload_hopCount]
  constructor
  · intro shared
    obtain ⟨_, low, high, exact⟩ := shared
    omega
  · intro bounds
    obtain ⟨low, high⟩ := bounds
    rw [hopCount_toNat high]
    omega

theorem decoded_executeRouteData (minOut initialAmount : UInt64)
    (rates : List (UInt32 × UInt32)) :
    decoded ((executeRouteData minOut initialAmount rates).drop 1) =
      ⟨minOut, UInt8.ofNat rates.length, initialAmount, rateBlocks rates⟩ := by
  rw [executeRouteData_eq, List.drop_one, List.tail_cons, decoded_payload]

theorem routeGrammar_shared : RouteGrammar (parseRouteWith 17 8 3)
    (fun route i => hopRateWith 8 route.rates i) where
  accepts := by
    intro minOut initialAmount rates
    rw [← accepted_executeRouteData minOut initialAmount rates]
    constructor
    · intro accepted
      obtain ⟨route, parsed⟩ := accepted
      exact (parse_ok_iff.mp parsed).1
    · intro accepted
      exact ⟨_, parse_ok_iff.mpr ⟨accepted, rfl⟩⟩
  decodes := by
    intro minOut initialAmount rates route parsed
    obtain ⟨accepted, routeExact⟩ := parse_ok_iff.mp parsed
    obtain ⟨_, few⟩ := (accepted_executeRouteData minOut initialAmount rates).mp accepted
    rw [decoded_executeRouteData] at routeExact
    subst routeExact
    refine ⟨rfl, hopCount_toNat few, rfl, ?_⟩
    intro i inside
    exact hopRateWith_rateBlocks inside (by omega)
  encodes := by
    intro data route parsed
    obtain ⟨accepted, routeExact⟩ := parse_ok_iff.mp parsed
    obtain ⟨minOut, initialAmount, rates, _, few, rfl⟩ := accepted_iff_payload.mp accepted
    rw [decoded_payload] at routeExact
    subst routeExact
    refine ⟨rates, (hopCount_toNat few).symm, ?_, ?_⟩
    · intro i inside
      exact hopRateWith_rateBlocks inside (by omega)
    · rw [executeRouteData_eq]

/-- The runner's encoder and both routers' parsers. -/
theorem execute_route_data_grammar :
    RouteGrammar PinocchioRouter.parseRoute PinocchioRouter.hopRate ∧
      RouteGrammar QuasarRouter.parseRoute QuasarRouter.hopRate :=
  ⟨routeGrammar_shared, routeGrammar_shared⟩

def sharedUser (seed : Fin 8) : Address := fun _ => sharedUserCases.get seed

def poolAddress (seed : Fin 8) (hop : Nat) : Address := fun byte =>
  if byte = 0 then sharedUserCases.get seed else 0xC1 + UInt8.ofNat hop

def fixturePool (seed : Fin 8) (hop : Nat) : Address × Account :=
  (poolAddress seed hop, ⟨poolLamports, mockAmmProgramId, []⟩)

/-- The instruction and the starting accounts of one row.  The account of the
loaded venue program comes from the test harness. -/
def routeFixture (programId : Address) (loaded : Account) (routeCase : RouteCase)
    (seed : Fin 8) : InstructionView × List (Address × Account) :=
  let hops := List.range routeCase.rates.length
  let metas := ⟨sharedUser seed, true, false⟩ :: hops.flatMap fun hop =>
    [⟨mockAmmProgramId, false, false⟩, ⟨poolAddress seed hop, true, false⟩]
  let accounts := (sharedUser seed, ⟨userLamports, mockAmmProgramId, []⟩) ::
    (mockAmmProgramId, loaded) :: hops.map (fixturePool seed)
  (⟨programId, metas, executeRouteData routeCase.minOut initialAmount routeCase.rates⟩, accounts)

/-- The ledger that a list of accounts describes. -/
def ledgerOf (accounts : List (Address × Account)) : Ledger := fun a =>
  match accounts.find? fun entry => entry.1 = a with
  | some entry => entry.2
  | none => ⟨0, fun _ => 0, []⟩

/-! ### The two-hop row at its first seed -/

theorem firstSeed_lt : 0 < 8 := by decide

def firstSeed : Fin 8 := ⟨0, firstSeed_lt⟩

def twoHopRow : InstructionView × List (Address × Account) :=
  routeFixture (fun _ => 0xB2) ⟨0, fun _ => 2, []⟩ (swapCases.get ⟨1, by decide⟩) firstSeed

def twoHopUser : AccountView := ⟨sharedUser firstSeed, false, true⟩

def twoHopPairs : List AccountView := twoHopRow.1.accounts.tail.map InstructionAccount.view

def twoHopPayload : List UInt8 := twoHopRow.1.data.drop 1

def twoHopLedger : Ledger := ledgerOf twoHopRow.2

theorem twoHop_apart :
    PinocchioRouter.PoolsApart (twoHopUser :: twoHopPairs) (1 :: twoHopPayload) := by
  intro payload route user same parsed userFound i inLoop pool found
  obtain ⟨_, rfl⟩ := PinocchioRouter.parseRoute_ok_iff.mp parsed
  obtain rfl : twoHopPayload = payload := List.tail_eq_of_cons_eq same
  obtain rfl : twoHopUser = user := Option.some.inj userFound
  have inRange : i < 2 := inLoop
  have pools : ∀ i < 2, ∀ pool, (twoHopUser :: twoHopPairs)[2 + 2 * i]? = some pool →
      pool.address ≠ twoHopUser.address := by
    intro i inside
    match i, inside with
    | 0, _ => intro pool found; cases found; decide
    | 1, _ => intro pool found; cases found; decide
  exact pools i inRange pool found

theorem ledgerOf_total (accounts : List (Address × Account)) :
    (ledgerOf accounts).total =
      ∑ a ∈ (accounts.map Prod.fst).toFinset, (ledgerOf accounts).balances a := by
  apply Balances.total_eq_sum
  intro a absent
  have missing : (accounts.find? fun entry => entry.1 = a) = none := by
    rw [List.find?_eq_none]
    intro entry member found
    apply absent
    rw [List.mem_toFinset]
    exact List.mem_map.mpr ⟨entry, member, by simpa using found⟩
  simp [Ledger.balances, ledgerOf, missing]

theorem twoHop_total : twoHopLedger.total ≤ 2 ^ 63 - 1 := by
  rw [twoHopLedger, ledgerOf_total]
  decide +kernel

end HopperBench.RouterBench
