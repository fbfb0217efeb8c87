import HopperBench.Router.RouterRunner

/-!
# The report over the routers

The venue has to be there before anything is measured.  Hopper's router stays in
the matrix whether its artifact is there or not, the others only when theirs
is.  The averages are below `2 ^ 61`, so the columns against Hopper are exact.
-/

set_option autoImplicit false

namespace HopperBench.RouterReport

open HopperBench.Solana HopperBench.RouteRun HopperBench.Harness HopperBench.RouterRunner
open Baseline (Above)

def hopperProgramId : Address := fun _ => 8

def pinocchioProgramId : Address := fun _ => 0xB2

def quasarProgramId : Address := fun _ => 0x51

structure ProgramIdOverrides where
  hopper : Option Address
  pinocchio : Option Address
  quasar : Option Address

structure Args (Path : Type) where
  hopperRoot : Path
  outDir : Path
  programIds : ProgramIdOverrides

/-- `ProgramSpec`, with the paths of the router's and the venue's binary. -/
structure BuiltSpec (Path : Type) extends ProgramSpec where
  binaryPath : Path
  mockAmmBinaryPath : Path

section Runner

variable (host : Host) (workspaceRoot : host.Path) (args : Args host.Path)

def mockAmmBinaryPath : host.Path := host.join workspaceRoot "target/deploy/mock_amm.so"

def hopperSpec : BuiltSpec host.Path :=
  ⟨⟨"hopper", args.programIds.hopper.getD hopperProgramId⟩,
    host.join args.hopperRoot "target/deploy/hopper_router.so",
    mockAmmBinaryPath host workspaceRoot⟩

def pinocchioSpec : BuiltSpec host.Path :=
  ⟨⟨"pinocchio", args.programIds.pinocchio.getD pinocchioProgramId⟩,
    host.join workspaceRoot "target/deploy/pinocchio_router.so",
    mockAmmBinaryPath host workspaceRoot⟩

def quasarSpec : BuiltSpec host.Path :=
  ⟨⟨"quasar", args.programIds.quasar.getD quasarProgramId⟩,
    host.join workspaceRoot "target/deploy/quasar_router.so",
    mockAmmBinaryPath host workspaceRoot⟩

/-- The specs that `retain` leaves: Hopper's whether its artifact is there or not. -/
def specs : List (BuiltSpec host.Path) :=
  Baseline.retain (fun spec => spec.framework == "hopper")
    (fun spec => host.present spec.binaryPath)
    [hopperSpec host workspaceRoot args, pinocchioSpec host workspaceRoot args,
      quasarSpec host workspaceRoot args]

/-- `run_program` on the binaries of a spec. -/
def runSpec (spec : BuiltSpec host.Path) : Except RowFailure FrameworkMetric := do
  let loaded ← host.load spec.binaryPath [spec.mockAmmBinaryPath]
  runProgram loaded.mollusk loaded.program spec.toProgramSpec (host.binarySize spec.binaryPath)

def ensureMockAmm : Except RowFailure Unit :=
  match host.ensureFile (mockAmmBinaryPath host workspaceRoot) with
  | .ok _ => .ok ()
  | .error msg => rowFailure (msg ++ " (build it with `cargo build-sbf` in mock-amm/)")

end Runner

structure HopperFigures where
  swap1hop : UInt64
  swap2hop : UInt64
  swap3hop : UInt64

def figuresOf (benchmark : FrameworkMetric) : HopperFigures :=
  ⟨benchmark.swap1hopCu, benchmark.swap2hopCu, benchmark.swap3hopCu⟩

def vsHopper (hopper : HopperFigures) (benchmark : FrameworkMetric) :
    Except RowFailure FrameworkMetric := do
  let swap1hopVsHopper ← plainDifference benchmark.swap1hopCu hopper.swap1hop
  let swap2hopVsHopper ← plainDifference benchmark.swap2hopCu hopper.swap2hop
  let swap3hopVsHopper ← plainDifference benchmark.swap3hopCu hopper.swap3hop
  .ok { benchmark with swap1hopVsHopper, swap2hopVsHopper, swap3hopVsHopper }

def isHopper (benchmark : FrameworkMetric) : Bool := benchmark.framework == "hopper"

/-- `run`, up to the report's rows. -/
def run (host : Host) (workspaceRoot : host.Path) (args : Args host.Path) :
    Except RowFailure (List FrameworkMetric) := do
  ensureMockAmm host workspaceRoot
  host.createOutDir args.outDir
  Baseline.report isHopper (.failed "missing Hopper baseline in benchmark results")
    (fun hopper => .ok (figuresOf hopper)) vsHopper (runSpec host) (specs host workspaceRoot args)

/-! ## What the columns say -/

structure Compared (hopper : HopperFigures) (benchmark row : FrameworkMetric) : Prop where
  swap1hop : Above benchmark.swap1hopCu hopper.swap1hop row.swap1hopVsHopper
  swap2hop : Above benchmark.swap2hopCu hopper.swap2hop row.swap2hopVsHopper
  swap3hop : Above benchmark.swap3hopCu hopper.swap3hop row.swap3hopVsHopper
  carried : row = { benchmark with
    swap1hopVsHopper := row.swap1hopVsHopper
    swap2hopVsHopper := row.swap2hopVsHopper
    swap3hopVsHopper := row.swap3hopVsHopper }

structure Small (benchmark : FrameworkMetric) : Prop where
  swap1hop : benchmark.swap1hopCu.toNat < 2 ^ 63
  swap2hop : benchmark.swap2hopCu.toNat < 2 ^ 63
  swap3hop : benchmark.swap3hopCu.toNat < 2 ^ 63

section Rows

variable {host : Host} {workspaceRoot : host.Path} {args : Args host.Path}
  {spec : BuiltSpec host.Path} {metric hopper benchmark row : FrameworkMetric}

theorem vsHopper_eq_ok (hopperSmall : Small hopper) (small : Small benchmark) :
    vsHopper (figuresOf hopper) benchmark = .ok row ↔
      Compared (figuresOf hopper) benchmark row := by
  have one : ∀ d, plainDifference benchmark.swap1hopCu (figuresOf hopper).swap1hop = .ok d ↔ _ :=
    fun _ => plainDifference_eq_ok small.swap1hop hopperSmall.swap1hop
  have two : ∀ d, plainDifference benchmark.swap2hopCu (figuresOf hopper).swap2hop = .ok d ↔ _ :=
    fun _ => plainDifference_eq_ok small.swap2hop hopperSmall.swap2hop
  have three : ∀ d, plainDifference benchmark.swap3hopCu (figuresOf hopper).swap3hop = .ok d ↔ _ :=
    fun _ => plainDifference_eq_ok small.swap3hop hopperSmall.swap3hop
  simp only [vsHopper, Sweep.bind_eq_ok, one, two, three, Except.ok.injEq]
  constructor
  · intro given
    obtain ⟨_, first, _, second, _, third, rfl⟩ := given
    exact ⟨first, second, third, rfl⟩
  · intro compared
    exact ⟨_, compared.swap1hop, _, compared.swap2hop, _, compared.swap3hop,
      compared.carried.symm⟩

theorem exists_row (hopperSmall : Small hopper) (small : Small benchmark) :
    ∃ row, Compared (figuresOf hopper) benchmark row := by
  obtain ⟨one, _, first⟩ := Baseline.difference_of_small small.swap1hop hopperSmall.swap1hop
  obtain ⟨two, _, second⟩ := Baseline.difference_of_small small.swap2hop hopperSmall.swap2hop
  obtain ⟨three, _, third⟩ := Baseline.difference_of_small small.swap3hop hopperSmall.swap3hop
  exact ⟨{ benchmark with
    swap1hopVsHopper := one
    swap2hopVsHopper := two
    swap3hopVsHopper := three }, first, second, third, rfl⟩

theorem Compared.self (compared : Compared (figuresOf hopper) hopper row) :
    row.swap1hopVsHopper = 0 ∧ row.swap2hopVsHopper = 0 ∧ row.swap3hopVsHopper = 0 :=
  ⟨Baseline.above_self.mp compared.swap1hop, Baseline.above_self.mp compared.swap2hop,
    Baseline.above_self.mp compared.swap3hop⟩

/-- The binaries of a spec were loaded, and the metric says what its router did. -/
def Reported (host : Host) (spec : BuiltSpec host.Path) (metric : FrameworkMetric) : Prop :=
  ∃ loaded, host.load spec.binaryPath [spec.mockAmmBinaryPath] = .ok loaded ∧
    Reports loaded.mollusk loaded.program spec.toProgramSpec (host.binarySize spec.binaryPath)
      metric

theorem runSpec_eq_ok : runSpec host spec = .ok metric ↔ Reported host spec metric := by
  simp only [runSpec, Reported, Sweep.bind_eq_ok]
  constructor
  · intro given
    obtain ⟨loaded, load, reported⟩ := given
    exact ⟨loaded, load, reports_of_runProgram reported⟩
  · intro given
    obtain ⟨loaded, load, reports⟩ := given
    exact ⟨loaded, load, runProgram_of_reports reports⟩

theorem Reported.small (reported : Reported host spec metric) : Small metric := by
  have mean : ∀ {mollusk router routeCase units},
      Averaged mollusk router spec.toProgramSpec routeCase units → units.toNat < 2 ^ 63 := by
    intro mollusk router routeCase units averaged
    obtain ⟨_, fits, exact⟩ := averaged
    omega
  obtain ⟨loaded, _, reports⟩ := reported
  exact ⟨mean reports.swap1hop, mean reports.swap2hop, mean reports.swap3hop⟩

def presentSpecs (host : Host) (workspaceRoot : host.Path) (args : Args host.Path) :
    List (BuiltSpec host.Path) :=
  Baseline.retain (fun spec => spec.framework == "hopper")
    (fun spec => host.present spec.binaryPath)
    [pinocchioSpec host workspaceRoot args, quasarSpec host workspaceRoot args]

theorem specs_eq : specs host workspaceRoot args =
    hopperSpec host workspaceRoot args :: presentSpecs host workspaceRoot args :=
  Baseline.retain_cons rfl _

theorem router_rules :
    Baseline.Rules isHopper (fun hopper => .ok (figuresOf hopper)) vsHopper (runSpec host)
      (Reported host) Compared (hopperSpec host workspaceRoot args)
      (presentSpecs host workspaceRoot args) where
  measured := fun _ _ _ => runSpec_eq_ok
  named := by
    intro hopper reported
    obtain ⟨_, _, reports⟩ := reported
    rw [isHopper, reports.framework]
    rfl
  figured := fun _ _ => ⟨_, rfl⟩
  related := by
    intro hopper figures first known spec benchmark row reported
    cases known
    exact vsHopper_eq_ok first.small reported.small
  filled := by
    intro hopper figures first known spec benchmark reported
    cases known
    exact exists_row first.small reported.small

theorem hopper_first {others rows : List FrameworkMetric}
    (reported : List.Forall₂ (Reported host) (specs host workspaceRoot args) (hopper :: others))
    (compared : List.Forall₂ (Compared (figuresOf hopper)) (hopper :: others) rows) :
    ∃ row rest, rows = row :: rest ∧ row.framework = "hopper" ∧ row.swap1hopVsHopper = 0 ∧
      row.swap2hopVsHopper = 0 ∧ row.swap3hopVsHopper = 0 := by
  rw [specs_eq] at reported
  cases reported with
  | cons first _ =>
      obtain ⟨_, _, reports⟩ := first
      cases compared with
      | cons own _ =>
          refine ⟨_, _, rfl, ?_, own.self⟩
          rw [own.carried]
          exact reports.framework

end Rows

/-- What the report is: the metric of every router that is there, with the exact
differences to Hopper's, whose own row comes first.  A run fails for the venue, the
output directory or a router without a metric, and for nothing else. -/
theorem router_report_exact (host : Host) (workspaceRoot : host.Path) (args : Args host.Path) :
    (∀ rows, run host workspaceRoot args = .ok rows ↔
      ensureMockAmm host workspaceRoot = .ok () ∧ host.createOutDir args.outDir = .ok () ∧
      ∃ hopper others,
        List.Forall₂ (Reported host) (specs host workspaceRoot args) (hopper :: others) ∧
        List.Forall₂ (Compared (figuresOf hopper)) (hopper :: others) rows) ∧
    (∀ rows, run host workspaceRoot args = .ok rows → ∃ row rest, rows = row :: rest ∧
      row.framework = "hopper" ∧ row.swap1hopVsHopper = 0 ∧ row.swap2hopVsHopper = 0 ∧
      row.swap3hopVsHopper = 0) ∧
    ∀ e, run host workspaceRoot args = .error e →
      ensureMockAmm host workspaceRoot = .error e ∨ host.createOutDir args.outDir = .error e ∨
      ∃ spec ∈ specs host workspaceRoot args, runSpec host spec = .error e := by
  have rules : Baseline.Rules _ _ _ _ _ _ (hopperSpec host workspaceRoot args)
    (presentSpecs host workspaceRoot args) := router_rules
  have answered : ∀ rows, run host workspaceRoot args = .ok rows ↔
      ensureMockAmm host workspaceRoot = .ok () ∧ host.createOutDir args.outDir = .ok () ∧
      ∃ hopper others,
        List.Forall₂ (Reported host) (specs host workspaceRoot args) (hopper :: others) ∧
        List.Forall₂ (Compared (figuresOf hopper)) (hopper :: others) rows := by
    intro rows
    rw [run, specs_eq, Sweep.bind_eq_ok]
    simp only [Sweep.bind_eq_ok, rules.report_eq_ok, Except.ok.injEq]
    constructor
    · intro given
      obtain ⟨_, venue, _, created, hopper, others, _, reported, rfl, compared⟩ := given
      exact ⟨venue, created, hopper, others, reported, compared⟩
    · intro given
      obtain ⟨venue, created, hopper, others, reported, compared⟩ := given
      exact ⟨(), venue, (), created, hopper, others, _, reported, rfl, compared⟩
  refine ⟨answered, ?_, ?_⟩
  · intro rows ok
    obtain ⟨_, _, hopper, others, reported, compared⟩ := (answered rows).mp ok
    exact hopper_first reported compared
  · intro e failed
    rw [run, specs_eq] at failed
    rcases Sweep.bind_eq_error.mp failed with venue | ⟨_, _, rest⟩
    · exact .inl venue
    · rcases Sweep.bind_eq_error.mp rest with directory | ⟨_, _, stopped⟩
      · exact .inr (.inl directory)
      · rw [specs_eq]
        exact .inr (.inr (rules.report_eq_error stopped))

end HopperBench.RouterReport
