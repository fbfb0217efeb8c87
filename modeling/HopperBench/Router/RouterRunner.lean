import HopperBench.Router.RowVerdict

/-!
# The runner over a router

A router is measured on the three rows of the table, eight seeds each, and then
on the row whose output misses its gate.  A metric says what the router did on
all of them.
-/

set_option autoImplicit false

namespace HopperBench.RouterRunner

open StoppingRun HopperBench.Solana HopperBench.RouterBench HopperBench.RouteRun
  HopperBench.RouteOrders HopperBench.RowVerdict HopperBench.Harness

theorem oneHop_listed : 0 < swapCases.length := by decide

theorem twoHop_listed : 1 < swapCases.length := by decide

theorem threeHop_listed : 2 < swapCases.length := by decide

def violationCase : RouteCase := ⟨[(1, 2)], 1000000000, 500000000⟩

structure FrameworkMetric where
  framework : String
  programId : Address
  swap1hopCu : UInt64
  swap2hopCu : UInt64
  swap3hopCu : UInt64
  swap1hopVsHopper : Int64
  swap2hopVsHopper : Int64
  swap3hopVsHopper : Int64
  binarySizeBytes : UInt64
  minOutViolationRejected : Bool
deriving DecidableEq

/-- The indices of `SHARED_USER_CASES`. -/
def seeds : List (Fin 8) := List.ofFn id

section Runner

variable (mollusk : Mollusk) (router : Address → List AccountView → List UInt8 → Program Unit)
  (spec : ProgramSpec)

def averageCu (routeCase : RouteCase) : Except RowFailure UInt64 :=
  Sweep.average (runRouteCase mollusk router spec routeCase)
    (.failed (spec.framework ++ " CU total overflowed during averaging")) seeds

def poolsUnchanged (seed : Fin 8) (resulting : List (Address × Account)) :
    List Nat → Except RowFailure Bool
  | [] => .ok true
  | hop :: rest => do
      let poolAfter ← lamportsFor mollusk resulting (poolAddress seed hop)
      if poolAfter ≠ poolLamports then .ok false
      else poolsUnchanged seed resulting rest

/-- `true` only when the route fails and every balance is unchanged. -/
def runMinOutViolation (seed : Fin 8) : Except RowFailure Bool :=
  let fixture := mollusk.fixture spec violationCase seed
  let result := mollusk.processInstruction router fixture.1 fixture.2
  match result.programResult with
  | .ok _ => .ok false
  | .error _ => do
      let userAfter ← lamportsFor mollusk result.resultingAccounts (sharedUser seed)
      if userAfter ≠ userLamports then .ok false
      else
        poolsUnchanged mollusk seed result.resultingAccounts
          (List.range violationCase.rates.length)

/-- `run_program`.  The size of the binary comes from the file system. -/
def runProgram (binarySize : Except RowFailure UInt64) : Except RowFailure FrameworkMetric := do
  let swap1hopCu ← averageCu mollusk router spec (swapCases.get ⟨0, oneHop_listed⟩)
  let swap2hopCu ← averageCu mollusk router spec (swapCases.get ⟨1, twoHop_listed⟩)
  let swap3hopCu ← averageCu mollusk router spec (swapCases.get ⟨2, threeHop_listed⟩)
  let minOutViolationRejected ← runMinOutViolation mollusk router spec firstSeed
  let binarySizeBytes ← binarySize
  .ok
    { framework := spec.framework
      programId := spec.programId
      swap1hopCu
      swap2hopCu
      swap3hopCu
      swap1hopVsHopper := 0
      swap2hopVsHopper := 0
      swap3hopVsHopper := 0
      binarySizeBytes
      minOutViolationRejected }

end Runner

section Reports

variable (mollusk : Mollusk) (router : Address → List AccountView → List UInt8 → Program Unit)
  (spec : ProgramSpec)

/-- A row passes at every seed, and `units` is the whole-number mean of what the
harness counted. -/
def Averaged (routeCase : RouteCase) (units : UInt64) : Prop :=
  let total := Sweep.sum (seeds.map fun seed =>
    unitsOf mollusk (mollusk.fixture spec routeCase seed))
  (∀ seed, RowPasses mollusk router spec routeCase seed) ∧ total < 2 ^ 64 ∧
    units.toNat = total / 8

structure Reports (binarySize : Except RowFailure UInt64) (metric : FrameworkMetric) : Prop where
  framework : metric.framework = spec.framework
  programId : metric.programId = spec.programId
  swap1hop : Averaged mollusk router spec (swapCases.get ⟨0, oneHop_listed⟩) metric.swap1hopCu
  swap2hop : Averaged mollusk router spec (swapCases.get ⟨1, twoHop_listed⟩) metric.swap2hopCu
  swap3hop : Averaged mollusk router spec (swapCases.get ⟨2, threeHop_listed⟩) metric.swap3hopCu
  rejected : metric.minOutViolationRejected = true ↔
    ∀ after, answerTo router (mollusk.fixture spec violationCase firstSeed) ≠ .ok after
  binarySize : binarySize = .ok metric.binarySizeBytes
  uncompared : metric.swap1hopVsHopper = 0 ∧ metric.swap2hopVsHopper = 0 ∧
    metric.swap3hopVsHopper = 0

end Reports

section Runs

variable {mollusk : Mollusk} {router : Address → List AccountView → List UInt8 → Program Unit}
  {spec : ProgramSpec} {routeCase : RouteCase}

theorem seeds_length : seeds.length = 8 := List.length_ofFn

theorem mem_seeds (seed : Fin 8) : seed ∈ seeds := List.mem_ofFn.mpr ⟨seed, rfl⟩

theorem averageCu_eq_ok {units : UInt64} :
    averageCu mollusk router spec routeCase = .ok units ↔
      Averaged mollusk router spec routeCase units := by
  have known : ∀ seed ∈ seeds, ∀ counted,
      runRouteCase mollusk router spec routeCase seed = .ok counted ↔
        RowPasses mollusk router spec routeCase seed ∧
          unitsOf mollusk (mollusk.fixture spec routeCase seed) = counted :=
    fun _ _ _ => runRouteCase_eq_ok
  rw [averageCu, Sweep.average_of_known (by rw [seeds_length]; decide) known, seeds_length,
    Averaged]
  simp only [mem_seeds, forall_const]

theorem poolsUnchanged_start {seed : Fin 8} {resulting : List (Address × Account)}
    {hops : List Nat}
    (reads : ∀ hop ∈ hops,
      lamportsFor mollusk resulting (poolAddress seed hop) = .ok poolLamports) :
    poolsUnchanged mollusk seed resulting hops = .ok true := by
  induction hops with
  | nil => rfl
  | cons hop rest ih =>
      rw [poolsUnchanged, reads hop List.mem_cons_self]
      simp only [bind, Except.bind, ne_eq, not_true_eq_false, if_false]
      exact ih fun other member => reads other (List.mem_cons_of_mem _ member)

theorem fixture_userStart {seed : Fin 8} :
    (ledgerOf (mollusk.fixture spec routeCase seed).2 (sharedUser seed)).lamports =
      userLamports :=
  UInt64.toNat_inj.mp fixture_userLamports

theorem fixture_poolStart {seed : Fin 8} {hop : Nat} (inside : hop < routeCase.rates.length)
    (few : hop < 3) :
    (ledgerOf (mollusk.fixture spec routeCase seed).2 (poolAddress seed hop)).lamports =
      poolLamports :=
  UInt64.toNat_inj.mp (fixture_poolLamports inside few)

/-- The violation row never lacks an account, and its answer says whether the
router refused the route. -/
theorem runMinOutViolation_eq_ok {seed : Fin 8} {answer : Bool} :
    runMinOutViolation mollusk router spec seed = .ok answer ↔
      (answer = true ↔
        ∀ after, answerTo router (mollusk.fixture spec violationCase seed) ≠ .ok after) := by
  have result : (mollusk.processInstruction router (mollusk.fixture spec violationCase seed).1
    (mollusk.fixture spec violationCase seed).2).programResult = _ := programResult_eq _
  have resulting : (mollusk.processInstruction router (mollusk.fixture spec violationCase seed).1
    (mollusk.fixture spec violationCase seed).2).resultingAccounts = _ := resultingAccounts_eq _
  rw [runMinOutViolation]
  cases answered : answerTo router (mollusk.fixture spec violationCase seed) with
  | ok after =>
      rw [answered] at result
      simp [result, eq_comm]
  | error abort =>
      rw [answered] at result
      rw [reported_of_error answered] at resulting
      have pools : poolsUnchanged mollusk seed
          ((mollusk.fixture spec violationCase seed).2.map fun entry =>
            (entry.1, ledgerOf (mollusk.fixture spec violationCase seed).2 entry.1))
          (List.range violationCase.rates.length) = .ok true := by
        apply poolsUnchanged_start
        intro hop member
        have inside := List.mem_range.mp member
        have few : hop < 3 := Nat.lt_of_lt_of_le inside (by decide)
        rw [lamportsFor_pool inside, fixture_poolStart inside few]
      simp only [result, resulting, lamportsFor_user, fixture_userStart, bind, Except.bind, ne_eq,
        not_true_eq_false, if_false, pools]
      simp [eq_comm]

theorem reports_of_runProgram {binarySize : Except RowFailure UInt64} {metric : FrameworkMetric}
    (reported : runProgram mollusk router spec binarySize = .ok metric) :
    Reports mollusk router spec binarySize metric := by
  simp only [runProgram, Sweep.bind_eq_ok, averageCu_eq_ok, runMinOutViolation_eq_ok] at reported
  obtain ⟨_, one, _, two, _, three, _, refused, _, sized, built⟩ := reported
  cases built
  exact ⟨rfl, rfl, one, two, three, refused, sized, rfl, rfl, rfl⟩

theorem runProgram_of_reports {binarySize : Except RowFailure UInt64} {metric : FrameworkMetric}
    (reports : Reports mollusk router spec binarySize metric) :
    runProgram mollusk router spec binarySize = .ok metric := by
  simp only [runProgram, Sweep.bind_eq_ok, averageCu_eq_ok, runMinOutViolation_eq_ok]
  obtain ⟨_, _, oneHop, twoHop, threeHop, _, _, _, size, answer⟩ := metric
  obtain ⟨rfl, rfl, one, two, three, refused, sized, rfl, rfl, rfl⟩ := reports
  exact ⟨oneHop, one, twoHop, two, threeHop, three, answer, refused, size, sized, rfl⟩

end Runs

/-- A metric is reported exactly when it says what the router did: every row ended
as the table says at all eight seeds, the figures are their means, and the flag
tells whether the route below its gate was refused. -/
theorem router_program_reports (mollusk : Mollusk)
    (router : Address → List AccountView → List UInt8 → Program Unit) (spec : ProgramSpec)
    (binarySize : Except RowFailure UInt64) (metric : FrameworkMetric) :
    runProgram mollusk router spec binarySize = .ok metric ↔
      Reports mollusk router spec binarySize metric :=
  ⟨reports_of_runProgram, runProgram_of_reports⟩

theorem averaged_of_budget {mollusk : Mollusk}
    {router : Address → List AccountView → List UInt8 → Program Unit} {spec : ProgramSpec}
    {routeCase : RouteCase} {budget : Nat} (small : budget < 2 ^ 61)
    (within : ∀ instruction accounts, (mollusk.computeUnits instruction accounts).toNat ≤ budget)
    (passes : ∀ seed, RowPasses mollusk router spec routeCase seed) :
    ∃ units, Averaged mollusk router spec routeCase units := by
  let units := fun seed => unitsOf mollusk (mollusk.fixture spec routeCase seed)
  have count : (seeds.map units).length = 8 := by
    rw [List.length_map, seeds_length]
  have each : ∀ counted ∈ seeds.map units, counted.toNat ≤ budget := by
    intro counted member
    obtain ⟨seed, _, rfl⟩ := List.mem_map.mp member
    exact within _ _
  obtain ⟨fits, mean, meanExact⟩ := Sweep.exists_mean (by rw [count]; omega) each
  rw [count] at meanExact
  exact ⟨mean, passes, fits, meanExact⟩

theorem violation_refused {mollusk : Mollusk} {spec : ProgramSpec} {seed : Fin 8}
    {after : Ledger} :
    answerTo pinocchioRouter (mollusk.fixture spec violationCase seed) ≠ .ok after := by
  intro answer
  obtain ⟨_, _, hops, out, rowEnd, gate⟩ := rowEnd_gated answer
  have folded : expectedHops initialAmount violationCase.rates =
      .ok [(1000000000, 500000000)] := by rfl
  obtain rfl := Except.ok.inj (folded.symm.trans rowEnd.folded)
  obtain rfl : 500000000 = out := Option.some.inj rowEnd.lastOut
  exact absurd gate (by decide)

/-- Both routers of this workspace get a metric over the shared venue, with the
violation row rejected. -/
theorem routers_reported (fw : QuasarRouter.Framework) (lawful : fw.Lawful)
    (framework : Framework) (mollusk : Mollusk) (spec : ProgramSpec) (budget : Nat)
    (small : budget < 2 ^ 61)
    (within : ∀ instruction accounts, (mollusk.computeUnits instruction accounts).toNat ≤ budget)
    (size : UInt64) :
    ∃ metric, runProgram mollusk (framework.router fw) spec (.ok size) = .ok metric ∧
      metric.minOutViolationRejected = true := by
  have averaged : ∀ routeCase ∈ swapCases, ∃ units,
      Averaged mollusk (framework.router fw) spec routeCase units := by
    intro routeCase listed
    apply averaged_of_budget small within
    intro seed
    exact (passes_iff_sound lawful framework).mpr (swapCases_sound routeCase listed)
  obtain ⟨oneHop, one⟩ := averaged _ (List.get_mem swapCases ⟨0, oneHop_listed⟩)
  obtain ⟨twoHop, two⟩ := averaged _ (List.get_mem swapCases ⟨1, twoHop_listed⟩)
  obtain ⟨threeHop, three⟩ := averaged _ (List.get_mem swapCases ⟨2, threeHop_listed⟩)
  have refused : ∀ after, answerTo (framework.router fw)
      (mollusk.fixture spec violationCase firstSeed) ≠ .ok after := by
    intro after answer
    exact violation_refused ((fixture_eq_ok lawful framework).mp answer)
  exact ⟨⟨spec.framework, spec.programId, oneHop, twoHop, threeHop, 0, 0, 0, size, true⟩,
    runProgram_of_reports ⟨rfl, rfl, one, two, three, iff_of_true rfl refused, rfl, rfl, rfl, rfl⟩,
    rfl⟩

theorem routers_reported_quasar :
    ∃ metric, runProgram plainMollusk (Framework.quasar.router QuasarRouter.listFramework)
        ⟨"quasar", fun _ => 0x51⟩ (.ok 4096) = .ok metric ∧
      metric.minOutViolationRejected = true :=
  routers_reported QuasarRouter.listFramework QuasarRouter.listFramework_lawful .quasar
    plainMollusk ⟨"quasar", fun _ => 0x51⟩ 1400000 (by decide)
    (fun _ _ => (by decide : (5000 : UInt64).toNat ≤ 1400000)) 4096

end HopperBench.RouterRunner
