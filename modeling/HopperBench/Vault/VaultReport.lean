import HopperBench.Vault.VaultRunner

/-!
# The report over the vault programs

The matrix starts with Hopper.  Another framework is in it only when its
artifact is there, and one that lives in a checkout of its own only when that
checkout is given.  Every program gets its metric, and then the columns against
Hopper are filled in.  An average of eight figures whose sum fits a word is
below `2 ^ 61`, so no column leaves its type.
-/

set_option autoImplicit false

namespace HopperBench.VaultReport

open HopperBench.Solana HopperBench.PinocchioVault HopperBench.WithdrawParity
  HopperBench.VaultContract HopperBench.Harness HopperBench.VaultRunner
open Baseline (Above)
open RouteRun (RowFailure)

def hopperProgramId : Address := fun _ => 7

/-- The bytes that the constants of Pinocchio and, in base 58, of Quasar stand for. -/
def pinocchioProgramId : Address := fun i =>
  [0x1e, 0x3c, 0xd6, 0x28, 0x43, 0x80, 0x94, 0x0e, 0x08, 0x62, 0x4c, 0xb8, 0x33, 0x8b, 0x77, 0xdc,
    0x33, 0x25, 0x75, 0xd1, 0x5f, 0xa3, 0x9a, 0x0f, 0x1d, 0xf1, 0x5e, 0xe0, 0x8f, 0xb8, 0x23,
    0xee].getD i.val 0

def quasarProgramId : Address := pinocchioProgramId

def anchorProgramId : Address := fun i =>
  [0xa7, 0xcb, 0x04, 0x12, 0xe8, 0x55, 0x6f, 0x91, 0x3b, 0x0c, 0xaa, 0xfe, 0x22, 0x40, 0x44, 0x56,
    0x8d, 0x1e, 0x63, 0x7a, 0x04, 0xcd, 0x15, 0x87, 0xbe, 0xef, 0x00, 0x00, 0xfa, 0xde, 0xd1,
    0xee].getD i.val 0

structure ProgramIdOverrides where
  hopper : Option Address
  pinocchio : Option Address
  quasar : Option Address
  anchor : Option Address

structure Args (Path : Type) where
  hopperRoot : Path
  quasarRoot : Option Path
  anchorRoot : Option Path
  outDir : Path
  programIds : ProgramIdOverrides

/-- `ProgramSpec`, with the path of the binary. -/
structure BuiltSpec (Path : Type) extends VaultSpec where
  binaryPath : Path

section Runner

variable (find : FindProgramAddress) (host : Host) (workspaceRoot : host.Path)
  (args : Args host.Path)

def hopperSpec : BuiltSpec host.Path :=
  ⟨⟨⟨"hopper", args.programIds.hopper.getD hopperProgramId⟩, true⟩,
    host.join args.hopperRoot "target/deploy/hopper_parity_vault.so"⟩

def pinocchioSpec : BuiltSpec host.Path :=
  ⟨⟨⟨"pinocchio", args.programIds.pinocchio.getD pinocchioProgramId⟩, true⟩,
    host.join workspaceRoot "target/deploy/pinocchio_vault.so"⟩

def quasarSpec (quasarRoot : host.Path) : BuiltSpec host.Path :=
  ⟨⟨⟨"quasar", args.programIds.quasar.getD quasarProgramId⟩, false⟩,
    host.join quasarRoot "target/deploy/quasar_vault.so"⟩

def anchorSpec (anchorRoot : host.Path) : BuiltSpec host.Path :=
  ⟨⟨⟨"anchor", args.programIds.anchor.getD anchorProgramId⟩, true⟩,
    host.join anchorRoot "target/deploy/anchor_vault.so"⟩

def otherSpecs : List (BuiltSpec host.Path) :=
  pinocchioSpec host workspaceRoot args ::
    ((args.quasarRoot.map (quasarSpec host args)).toList ++
      (args.anchorRoot.map (anchorSpec host args)).toList)

/-- The specs that `retain` leaves: Hopper's whether its artifact is there or not. -/
def specs : List (BuiltSpec host.Path) :=
  Baseline.retain (fun spec => spec.framework == "hopper")
    (fun spec => host.present spec.binaryPath)
    (hopperSpec host args :: otherSpecs host workspaceRoot args)

/-- `run_program` on the binary of a spec. -/
def runSpec (spec : BuiltSpec host.Path) : Except RowFailure FrameworkMetric := do
  let loaded ← host.load spec.binaryPath []
  runProgram find loaded.mollusk loaded.program (host.binarySize spec.binaryPath) spec.toVaultSpec

end Runner

structure HopperFigures where
  authorize : UInt64
  counterAccess : UInt64
  deposit : UInt64
  withdraw : UInt64

def hopperFigures (benchmark : FrameworkMetric) : Except RowFailure HopperFigures :=
  match benchmark.authorizeCu with
  | none => rowFailure "Hopper baseline missing authorize workload"
  | some authorize =>
      match benchmark.counterAccessCu with
      | none => rowFailure "Hopper baseline missing counter_access workload"
      | some counterAccess =>
          .ok ⟨authorize, counterAccess, benchmark.depositCu, benchmark.withdrawCu⟩

/-- `cu.map(|cu| cu as i64 - against as i64)` -/
def optionDifference (cu : Option UInt64) (against : UInt64) : Except RowFailure (Option Int64) :=
  match cu with
  | none => .ok none
  | some cu => do
      let d ← plainDifference cu against
      .ok (some d)

def vsHopper (hopper : HopperFigures) (benchmark : FrameworkMetric) :
    Except RowFailure FrameworkMetric := do
  let authorizeVsHopper ← optionDifference benchmark.authorizeCu hopper.authorize
  let counterAccessVsHopper ← optionDifference benchmark.counterAccessCu hopper.counterAccess
  let depositVsHopper ← plainDifference benchmark.depositCu hopper.deposit
  let withdrawVsHopper ← plainDifference benchmark.withdrawCu hopper.withdraw
  .ok
    { benchmark with
      authorizeVsHopper
      counterAccessVsHopper
      depositVsHopper
      withdrawVsHopper }

def isHopper (benchmark : FrameworkMetric) : Bool := benchmark.framework == "hopper"

/-- `run`, up to the report's rows. -/
def run (find : FindProgramAddress) (host : Host) (workspaceRoot : host.Path)
    (args : Args host.Path) : Except RowFailure (List FrameworkMetric) := do
  host.createOutDir args.outDir
  Baseline.report isHopper (.failed "missing Hopper baseline in benchmark results") hopperFigures
    vsHopper (runSpec find host) (specs host workspaceRoot args)

/-! ## What the columns say -/

/-- A column is null where the figure is, and otherwise says how far the figure
lies above Hopper's. -/
def ColumnAbove (figure : Option UInt64) (against : UInt64) (column : Option Int64) : Prop :=
  match figure with
  | none => column = none
  | some units => ∃ d, column = some d ∧ Above units against d

structure Compared (hopper : HopperFigures) (benchmark row : FrameworkMetric) : Prop where
  authorize : ColumnAbove benchmark.authorizeCu hopper.authorize row.authorizeVsHopper
  counterAccess : ColumnAbove benchmark.counterAccessCu hopper.counterAccess
    row.counterAccessVsHopper
  deposit : Above benchmark.depositCu hopper.deposit row.depositVsHopper
  withdraw : Above benchmark.withdrawCu hopper.withdraw row.withdrawVsHopper
  carried : row = { benchmark with
    authorizeVsHopper := row.authorizeVsHopper
    counterAccessVsHopper := row.counterAccessVsHopper
    depositVsHopper := row.depositVsHopper
    withdrawVsHopper := row.withdrawVsHopper }

structure HopperFigures.Of (figures : HopperFigures) (hopper : FrameworkMetric) : Prop where
  authorize : hopper.authorizeCu = some figures.authorize
  counterAccess : hopper.counterAccessCu = some figures.counterAccess
  deposit : hopper.depositCu = figures.deposit
  withdraw : hopper.withdrawCu = figures.withdraw

structure Small (benchmark : FrameworkMetric) : Prop where
  authorize : ∀ units ∈ benchmark.authorizeCu, units.toNat < 2 ^ 63
  counterAccess : ∀ units ∈ benchmark.counterAccessCu, units.toNat < 2 ^ 63
  deposit : benchmark.depositCu.toNat < 2 ^ 63
  withdraw : benchmark.withdrawCu.toNat < 2 ^ 63

section Columns

variable {hopper : HopperFigures} {benchmark row : FrameworkMetric}

theorem optionDifference_eq_ok {cu : Option UInt64} {against : UInt64}
    (small : ∀ units ∈ cu, units.toNat < 2 ^ 63) (againstSmall : against.toNat < 2 ^ 63)
    {column : Option Int64} :
    optionDifference cu against = .ok column ↔ ColumnAbove cu against column := by
  cases cu with
  | none => simp [optionDifference, ColumnAbove, eq_comm]
  | some units =>
      have exact : ∀ d, plainDifference units against = .ok d ↔ _ :=
        fun _ => plainDifference_eq_ok (small units rfl) againstSmall
      simp only [optionDifference, ColumnAbove, Sweep.bind_eq_ok, exact, Except.ok.injEq]
      constructor
      · intro given
        obtain ⟨d, above, same⟩ := given
        exact ⟨d, same.symm, above⟩
      · intro given
        obtain ⟨d, same, above⟩ := given
        exact ⟨d, above, same.symm⟩

theorem hopperFigures_eq_ok {figures : HopperFigures} :
    hopperFigures benchmark = .ok figures ↔ figures.Of benchmark := by
  unfold hopperFigures
  constructor
  · intro ok
    cases authorized : benchmark.authorizeCu with
    | none =>
        rw [authorized] at ok
        cases ok
    | some authorize =>
        cases counted : benchmark.counterAccessCu with
        | none =>
            rw [authorized, counted] at ok
            cases ok
        | some counterAccess =>
            rw [authorized, counted] at ok
            cases ok
            exact ⟨authorized, counted, rfl, rfl⟩
  · intro figuresOf
    obtain ⟨authorized, counted, deposited, withdrew⟩ := figuresOf
    simp only [authorized, counted, deposited, withdrew]

theorem vsHopper_eq_ok {hopper : FrameworkMetric} {figures : HopperFigures}
    (figuresOf : figures.Of hopper) (hopperSmall : Small hopper) (small : Small benchmark) :
    vsHopper figures benchmark = .ok row ↔ Compared figures benchmark row := by
  have authorize : ∀ column,
      optionDifference benchmark.authorizeCu figures.authorize = .ok column ↔ _ :=
    fun _ => optionDifference_eq_ok small.authorize
      (hopperSmall.authorize _ figuresOf.authorize)
  have counterAccess : ∀ column,
      optionDifference benchmark.counterAccessCu figures.counterAccess = .ok column ↔ _ :=
    fun _ => optionDifference_eq_ok small.counterAccess
      (hopperSmall.counterAccess _ figuresOf.counterAccess)
  have deposit : ∀ d, plainDifference benchmark.depositCu figures.deposit = .ok d ↔ _ :=
    fun _ => plainDifference_eq_ok small.deposit (figuresOf.deposit ▸ hopperSmall.deposit)
  have withdraw : ∀ d, plainDifference benchmark.withdrawCu figures.withdraw = .ok d ↔ _ :=
    fun _ => plainDifference_eq_ok small.withdraw (figuresOf.withdraw ▸ hopperSmall.withdraw)
  simp only [vsHopper, Sweep.bind_eq_ok, authorize, counterAccess, deposit, withdraw,
    Except.ok.injEq]
  constructor
  · intro given
    obtain ⟨_, authorized, _, counted, _, deposited, _, withdrew, rfl⟩ := given
    exact ⟨authorized, counted, deposited, withdrew, rfl⟩
  · intro compared
    exact ⟨_, compared.authorize, _, compared.counterAccess, _, compared.deposit, _,
      compared.withdraw, compared.carried.symm⟩

theorem Compared.self {hopper : FrameworkMetric} {figures : HopperFigures}
    (figuresOf : figures.Of hopper) (compared : Compared figures hopper row) :
    row.authorizeVsHopper = some 0 ∧ row.counterAccessVsHopper = some 0 ∧
      row.depositVsHopper = 0 ∧ row.withdrawVsHopper = 0 := by
  obtain ⟨authorize, counterAccess, deposit, withdraw, _⟩ := compared
  rw [figuresOf.authorize] at authorize
  rw [figuresOf.counterAccess] at counterAccess
  rw [figuresOf.deposit] at deposit
  rw [figuresOf.withdraw] at withdraw
  obtain ⟨_, column, above⟩ := authorize
  obtain ⟨_, counterColumn, counterAbove⟩ := counterAccess
  rw [column, counterColumn, Baseline.above_self.mp above, Baseline.above_self.mp counterAbove]
  exact ⟨rfl, rfl, Baseline.above_self.mp deposit, Baseline.above_self.mp withdraw⟩

end Columns

section Rows

variable {find : FindProgramAddress} {host : Host} {workspaceRoot : host.Path}
  {args : Args host.Path} {spec : BuiltSpec host.Path} {metric : FrameworkMetric}

/-- The binary of a spec was loaded, and the metric says what its program did. -/
def Reported (find : FindProgramAddress) (host : Host) (spec : BuiltSpec host.Path)
    (metric : FrameworkMetric) : Prop :=
  ∃ loaded, host.load spec.binaryPath [] = .ok loaded ∧
    Reports find loaded.mollusk loaded.program (host.binarySize spec.binaryPath) spec.toVaultSpec
      metric

theorem runSpec_eq_ok
    (distinct : ∀ user ∈ sharedUsers, user ≠ vaultAddress find spec.programId user) :
    runSpec find host spec = .ok metric ↔ Reported find host spec metric := by
  simp only [runSpec, Reported, Sweep.bind_eq_ok]
  constructor
  · intro given
    obtain ⟨loaded, load, reported⟩ := given
    exact ⟨loaded, load, reports_of_runProgram distinct reported⟩
  · intro given
    obtain ⟨loaded, load, reports⟩ := given
    exact ⟨loaded, load, runProgram_of_reports distinct reports⟩

theorem small_of_averaged {mollusk : RouteRun.Mollusk} {fixture : Address → Fixture}
    {passes : Address → Prop} {units : UInt64}
    (averaged : Averaged mollusk fixture passes units) : units.toNat < 2 ^ 63 := by
  obtain ⟨_, fits, mean⟩ := averaged
  omega

theorem small_of_optional {supports : Bool} {averaged : UInt64 → Prop} {figure : Option UInt64}
    (optional : Optional supports averaged figure)
    (small : ∀ units, averaged units → units.toNat < 2 ^ 63) :
    ∀ units ∈ figure, units.toNat < 2 ^ 63 := by
  intro units member
  unfold Optional at optional
  split at optional
  · obtain ⟨known, rfl, given⟩ := optional
    exact Option.some.inj member ▸ small known given
  · rw [optional] at member
    cases member

theorem Reported.small (reported : Reported find host spec metric) : Small metric := by
  obtain ⟨loaded, _, reports⟩ := reported
  exact ⟨small_of_optional reports.authorize fun _ => small_of_averaged,
    small_of_optional reports.counterAccess fun _ => small_of_averaged,
    small_of_averaged reports.deposit, small_of_averaged reports.withdraw⟩

/-- Hopper supports every workload, and so it has all figures. -/
theorem Reported.exists_figures (reported : Reported find host spec metric)
    (supports : spec.supportsValidationWorkloads = true) :
    ∃ figures : HopperFigures, figures.Of metric := by
  obtain ⟨loaded, _, reports⟩ := reported
  have authorize := reports.authorize
  have counterAccess := reports.counterAccess
  rw [Optional, if_pos supports] at authorize counterAccess
  obtain ⟨authorizeCu, authorized, _⟩ := authorize
  obtain ⟨counterCu, counted, _⟩ := counterAccess
  exact ⟨⟨authorizeCu, counterCu, _, _⟩, authorized, counted, rfl, rfl⟩

def presentSpecs (host : Host) (workspaceRoot : host.Path) (args : Args host.Path) :
    List (BuiltSpec host.Path) :=
  Baseline.retain (fun spec => spec.framework == "hopper")
    (fun spec => host.present spec.binaryPath)
    (otherSpecs host workspaceRoot args)

theorem specs_eq :
    specs host workspaceRoot args = hopperSpec host args :: presentSpecs host workspaceRoot args :=
  Baseline.retain_cons rfl _

theorem exists_column {figure : Option UInt64} {against : UInt64}
    (small : ∀ units ∈ figure, units.toNat < 2 ^ 63) (againstSmall : against.toNat < 2 ^ 63) :
    ∃ column, ColumnAbove figure against column := by
  cases figure with
  | none => exact ⟨none, rfl⟩
  | some units =>
      obtain ⟨d, _, above⟩ := Baseline.difference_of_small (small units rfl) againstSmall
      exact ⟨some d, d, rfl, above⟩

theorem exists_row {hopper benchmark : FrameworkMetric} {figures : HopperFigures}
    (figuresOf : figures.Of hopper) (hopperSmall : Small hopper) (small : Small benchmark) :
    ∃ row, Compared figures benchmark row := by
  obtain ⟨authorize, authorized⟩ := exists_column small.authorize
    (hopperSmall.authorize _ figuresOf.authorize)
  obtain ⟨counterAccess, counted⟩ := exists_column small.counterAccess
    (hopperSmall.counterAccess _ figuresOf.counterAccess)
  obtain ⟨deposit, _, deposited⟩ := Baseline.difference_of_small small.deposit
    (figuresOf.deposit ▸ hopperSmall.deposit)
  obtain ⟨withdraw, _, withdrew⟩ := Baseline.difference_of_small small.withdraw
    (figuresOf.withdraw ▸ hopperSmall.withdraw)
  exact ⟨{ benchmark with
    authorizeVsHopper := authorize
    counterAccessVsHopper := counterAccess
    depositVsHopper := deposit
    withdrawVsHopper := withdraw }, authorized, counted, deposited, withdrew, rfl⟩

theorem vault_rules
    (distinct : ∀ spec ∈ specs host workspaceRoot args, ∀ user ∈ sharedUsers,
      user ≠ vaultAddress find spec.programId user) :
    Baseline.Rules isHopper hopperFigures vsHopper (runSpec find host) (Reported find host) Compared
      (hopperSpec host args) (presentSpecs host workspaceRoot args) where
  measured := fun spec member _ => runSpec_eq_ok (distinct spec (specs_eq ▸ member))
  named := by
    intro hopper reported
    obtain ⟨_, _, reports⟩ := reported
    rw [isHopper, reports.framework]
    rfl
  figured := by
    intro hopper reported
    obtain ⟨figures, figuresOf⟩ := reported.exists_figures rfl
    exact ⟨figures, hopperFigures_eq_ok.mpr figuresOf⟩
  related := fun _ _ first figures _ _ _ reported =>
    vsHopper_eq_ok (hopperFigures_eq_ok.mp figures) first.small reported.small
  filled := fun _ _ first figures _ _ reported =>
    exists_row (hopperFigures_eq_ok.mp figures) first.small reported.small

theorem hopper_first {hopper : FrameworkMetric} {others rows : List FrameworkMetric}
    {figures : HopperFigures}
    (reported : List.Forall₂ (Reported find host) (specs host workspaceRoot args)
      (hopper :: others)) (figuresOf : figures.Of hopper)
    (compared : List.Forall₂ (Compared figures) (hopper :: others) rows) :
    ∃ row rest, rows = row :: rest ∧ row.framework = "hopper" ∧
      row.authorizeVsHopper = some 0 ∧ row.counterAccessVsHopper = some 0 ∧
      row.depositVsHopper = 0 ∧ row.withdrawVsHopper = 0 := by
  rw [specs_eq] at reported
  cases reported with
  | cons first _ =>
      obtain ⟨_, _, reports⟩ := first
      cases compared with
      | cons own _ =>
          refine ⟨_, _, rfl, ?_, own.self figuresOf⟩
          rw [own.carried]
          exact reports.framework

end Rows

/-- What the report is: the metric of every program that is there, with the exact
differences to Hopper's, whose own row comes first.  A run fails for the output
directory or for a program without a metric, and for nothing else. -/
theorem vault_report_exact (find : FindProgramAddress) (host : Host) (workspaceRoot : host.Path)
    (args : Args host.Path)
    (distinct : ∀ spec ∈ specs host workspaceRoot args, ∀ user ∈ sharedUsers,
      user ≠ vaultAddress find spec.programId user) :
    (∀ rows, run find host workspaceRoot args = .ok rows ↔
      host.createOutDir args.outDir = .ok () ∧ ∃ hopper others figures,
        List.Forall₂ (Reported find host) (specs host workspaceRoot args) (hopper :: others) ∧
        HopperFigures.Of figures hopper ∧
        List.Forall₂ (Compared figures) (hopper :: others) rows) ∧
    (∀ rows, run find host workspaceRoot args = .ok rows → ∃ row rest, rows = row :: rest ∧
      row.framework = "hopper" ∧ row.authorizeVsHopper = some 0 ∧
      row.counterAccessVsHopper = some 0 ∧ row.depositVsHopper = 0 ∧ row.withdrawVsHopper = 0) ∧
    ∀ e, run find host workspaceRoot args = .error e → host.createOutDir args.outDir = .error e ∨
      ∃ spec ∈ specs host workspaceRoot args, runSpec find host spec = .error e := by
  have rules := vault_rules distinct
  cases created : host.createOutDir args.outDir with
  | error e' =>
      have stopped : run find host workspaceRoot args = .error e' := by
        rw [run, created]
        rfl
      rw [stopped]
      exact ⟨by simp, by simp, by simp⟩
  | ok _ =>
      have reports : run find host workspaceRoot args =
          Baseline.report isHopper (.failed "missing Hopper baseline in benchmark results")
            hopperFigures vsHopper (runSpec find host) (specs host workspaceRoot args) := by
        rw [run, created]
        rfl
      rw [reports]
      refine ⟨?_, ?_, ?_⟩
      · intro rows
        simp only [← hopperFigures_eq_ok, true_and, specs_eq]
        exact rules.report_eq_ok
      · intro rows ok
        rw [specs_eq] at ok
        obtain ⟨hopper, others, figures, reported, known, compared⟩ := rules.report_eq_ok.mp ok
        rw [← specs_eq] at reported
        exact hopper_first reported (hopperFigures_eq_ok.mp known) compared
      · intro e failed
        rw [specs_eq] at failed ⊢
        exact .inr (rules.report_eq_error failed)

/-- A machine whose artifacts all hold the Pinocchio program, without Quasar's. -/
def plainHost : Host where
  Path := String
  join := fun root rest => root ++ "/" ++ rest
  display := id
  isFile := fun path => path != "quasar/target/deploy/quasar_vault.so"
  createDirAll := fun _ => .ok ()
  stat := fun _ => .ok 4096
  load := fun _ _ => .ok ⟨RouteRun.plainMollusk,
    processInstruction sampleDerivation Accounting.systemTransfer⟩

def plainArgs : Args plainHost.Path :=
  ⟨"hopper", some "quasar", none, "out", ⟨none, some (fun _ => 3), none, none⟩⟩

def hopperRow : FrameworkMetric :=
  { pinocchioMetric with
    framework := "hopper"
    programId := hopperProgramId
    authorizeVsHopper := some 0
    counterAccessVsHopper := some 0 }

def pinocchioRow : FrameworkMetric :=
  { pinocchioMetric with
    authorizeVsHopper := some 0
    counterAccessVsHopper := some 0 }

theorem vault_report_exact_plainHost :
    ∃ hopper others figures,
      List.Forall₂ (Reported sampleDerivation plainHost) (specs plainHost "bench" plainArgs)
        (hopper :: others) ∧
      HopperFigures.Of figures hopper ∧
      List.Forall₂ (Compared figures) (hopper :: others) [hopperRow, pinocchioRow] :=
  (((vault_report_exact sampleDerivation plainHost "bench" plainArgs
    fun _ _ => sharedUsers_apart _).1 [hopperRow, pinocchioRow]).mp (by decide +kernel)).2

end HopperBench.VaultReport
