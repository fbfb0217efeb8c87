import HopperBench.Primitives.PrimitiveRun

/-!
# The budget does not show

Everything the primitives program does has a bill, so a larger budget changes
neither what an invocation that returned did nor what it consumed.  A run of the
runner that got through reports the same rows under every larger budget.
-/

set_option autoImplicit false

namespace HopperBench.MeterBudget

open StoppingRun Metered HopperBench.Solana HopperBench.BracketedDelta HopperBench.BenchInstructions
  HopperBench.MeasuredBracket HopperBench.PrimitiveRun HopperBench.RouterBench

def AnyLine (_ : String) : Prop := True

section Billed

variable {x : Metered Unit} {k : AccountView → Account → Metered Unit} (hopper : Hopper)
  (costs : Costs) (programId : Address) (accounts : List AccountView) (instructionData : List UInt8)

theorem billed_anyLine (quiet : Billed Quiet x) : Billed AnyLine x :=
  quiet.weaken fun _ _ => trivial

theorem billed_msg (text : String) : Billed AnyLine (msg costs text) :=
  (billed_spend _).bind fun _ => billed_log fun _ _ => trivial

theorem billed_solLogComputeUnits : Billed AnyLine (solLogComputeUnits costs) :=
  (billed_spend _).bind fun _ => billed_report fun _ => trivial

theorem billed_bracketed (name : String) (quiet : Billed Quiet x) :
    Billed AnyLine (bracketed costs name x) := by
  unfold bracketed
  refine (billed_msg costs _).bind fun _ => ?_
  refine (billed_solLogComputeUnits costs).bind fun _ => ?_
  refine (billed_anyLine quiet).bind fun _ => ?_
  exact (billed_solLogComputeUnits costs).bind fun _ => billed_msg costs _

theorem billed_first (each : ∀ vault viewed, Billed AnyLine (k vault viewed)) :
    Billed AnyLine (onFirst accounts k) :=
  (billed_uncharged _).bind fun vault => (billed_uncharged _).bind fun viewed => each vault viewed

theorem billed_owned (each : ∀ vault viewed, Billed AnyLine (k vault viewed)) :
    Billed AnyLine (onOwned hopper accounts programId k) :=
  billed_first accounts fun vault viewed =>
    (billed_anyLine (billed_tryCall _)).bind fun _ => each vault viewed

theorem billed_writable (each : ∀ vault viewed, Billed AnyLine (k vault viewed)) :
    Billed AnyLine (onWritable hopper accounts programId k) :=
  billed_owned hopper programId accounts fun vault viewed =>
    (billed_anyLine (billed_tryCall _)).bind fun _ => each vault viewed

theorem billed_checkKeysEq : Billed AnyLine (benchCheckKeysEq hopper costs accounts) := by
  unfold benchCheckKeysEq
  split
  · exact billed_bracketed costs _ (billed_tryCall _)
  · exact billed_uncharged _

theorem billed_dispatch (disc : UInt8) :
    Billed AnyLine (dispatch hopper costs programId accounts instructionData disc) := by
  unfold dispatch
  split
  · exact billed_first accounts fun _ _ => billed_bracketed costs _ (billed_tryCall _)
  · exact billed_first accounts fun _ _ => billed_bracketed costs _ (billed_tryCall _)
  · exact billed_first accounts fun _ _ => billed_bracketed costs _ (billed_tryCall _)
  · exact billed_first accounts fun _ _ => billed_bracketed costs _ (billed_tryCall _)
  · exact billed_checkKeysEq hopper costs accounts
  · exact billed_owned hopper programId accounts fun _ _ =>
      billed_bracketed costs _ (billed_tryCall _)
  · exact billed_writable hopper programId accounts fun _ _ =>
      billed_bracketed costs _ ((billed_tryCall _).bind fun _ => billed_uncharged _)
  · exact billed_writable hopper programId accounts fun _ _ =>
      billed_bracketed costs _ ((billed_call _).bind fun _ => billed_uncharged _)
  · exact billed_first accounts fun _ _ => billed_bracketed costs _ (billed_tryCall _)
  · exact billed_bracketed costs _ (billed_call _)
  · exact billed_first accounts fun _ _ => billed_bracketed costs _ (billed_tryCall _)
  · exact billed_owned hopper programId accounts fun _ _ =>
      billed_bracketed costs _ ((billed_call _).bind fun _ => billed_uncharged _)
  · exact billed_owned hopper programId accounts fun _ _ =>
      billed_bracketed costs _
        ((billed_call _).bind fun _ => (billed_call _).bind fun _ => billed_pure _)
  · exact billed_owned hopper programId accounts fun _ viewed =>
      billed_bracketed costs _ (billed_fingerprintChecked hopper costs viewed.data)
  · exact billed_owned hopper programId accounts fun _ viewed =>
      billed_bracketed costs _ (billed_stateDiffed hopper viewed.data)
  · exact billed_writable hopper programId accounts fun vault viewed =>
      billed_bracketed costs _ (billed_fieldSet hopper costs viewed.data vault)
  · exact billed_owned hopper programId accounts fun _ _ =>
      billed_bracketed costs _ ((billed_spend _).bind fun _ => billed_uncharged _)
  · exact billed_owned hopper programId accounts fun _ viewed =>
      billed_bracketed costs _ (billed_receiptFilled hopper viewed.data)
  · exact billed_owned hopper programId accounts fun _ viewed =>
      billed_bracketed costs _ (billed_receiptEmitted hopper viewed.data)
  · exact billed_bracketed costs _
      (billed_typedDispatch hopper costs programId accounts instructionData)
  · exact billed_anyLine (billed_writeProcHeader hopper programId accounts)
  · exact billed_bracketed costs "measurement_overhead" (billed_pure ())
  · exact billed_uncharged _

theorem billed_bench : Billed AnyLine
    (BenchInstructions.processInstruction hopper costs programId accounts instructionData) :=
  (billed_spend _).bind fun _ => (billed_uncharged _).bind fun disc =>
    billed_dispatch hopper costs programId accounts instructionData disc

end Billed

theorem billedAlone (harness : Harness) (disc : UInt8) (programId : Address)
    (views : List AccountView) (data : List UInt8) :
    Billed AnyLine (harness.alone disc programId views data) :=
  billed_anyLine (billed_measured harness.hopper harness.costs programId views data disc)

/-! ## A larger budget -/

def withBudget (harness : Harness) (budget : UInt64) : Harness := { harness with budget := budget }

section Invocations

variable {harness : Harness} {small large : UInt64} {program : MeteredProgram}
  {instruction : InstructionView} {accounts : List (Address × Account)}

/-- An invocation that returned does and consumes the same on a fuller meter. -/
structure SameRun (harness : Harness) (small large : UInt64) (program : MeteredProgram)
    (instruction : InstructionView) (accounts : List (Address × Account)) : Prop where
  returns : ((withBudget harness large).processInstruction program instruction
    accounts).programResult = .ok ()
  state : ((withBudget harness large).execute program instruction accounts).2.state =
    ((withBudget harness small).execute program instruction accounts).2.state
  units : ((withBudget harness large).processInstruction program instruction
      accounts).computeUnitsConsumed =
    ((withBudget harness small).processInstruction program instruction
      accounts).computeUnitsConsumed

theorem sub_remaining {budget : UInt64} {units : Nat} (enough : units ≤ budget.toNat) :
    budget - UInt64.ofNat (budget.toNat - units) = UInt64.ofNat units := by
  have bound := budget.toNat_lt
  have left : (UInt64.ofNat (budget.toNat - units)).toNat = budget.toNat - units :=
    UInt64.toNat_ofNat_of_lt' (show _ < 2 ^ 64 by omega)
  have paid : (UInt64.ofNat units).toNat = units :=
    UInt64.toNat_ofNat_of_lt' (show _ < 2 ^ 64 by omega)
  rw [← UInt64.toNat_inj, UInt64.toNat_sub_of_le _ _ (UInt64.le_iff_toNat_le.mpr (by omega)), left,
    paid]
  omega

theorem sameRun_of_le
    (billed : ∀ programId views data, Billed AnyLine (program programId views data))
    (le : small.toNat ≤ large.toNat)
    (returned : ((withBudget harness small).processInstruction program instruction
      accounts).programResult = .ok ()) :
    SameRun harness small large program instruction accounts := by
  obtain ⟨bill, bills, -⟩ := billed instruction.programId
    (instruction.accounts.map InstructionAccount.view) instruction.data
    (Machine.start (ledgerOf accounts))
  have ran := Exec.run_eq_of_fst (execute_of_programResult returned)
  obtain ⟨result, enough, left⟩ := bills.of_ok ran
  have paid : bill.units ≤ small.toNat := enough
  have more := bills.paid large.toNat [] (paid.trans le)
  rw [result] at more
  have ranLarge : (withBudget harness large).execute program instruction accounts =
    (.ok (), ⟨bill.state, large.toNat - bill.units, [] ++ bill.lines large.toNat⟩) := more
  have ranSmall : ((withBudget harness small).execute program instruction accounts).2 =
    ⟨bill.state, small.toNat - bill.units, [] ++ bill.lines small.toNat⟩ := left
  refine ⟨?_, ?_, ?_⟩
  · change ((withBudget harness large).execute program instruction accounts).1.mapError _ = _
    rw [ranLarge]
    rfl
  · rw [ranLarge, ranSmall]
  · change large - UInt64.ofNat
        ((withBudget harness large).execute program instruction accounts).2.remaining =
      small - UInt64.ofNat
        ((withBudget harness small).execute program instruction accounts).2.remaining
    rw [ranLarge, ranSmall, sub_remaining (paid.trans le), sub_remaining paid]

end Invocations

section Runs

variable {harness : Harness} {small large : UInt64} (le : small.toNat ≤ large.toNat)
include le

theorem bench_sameRun {instruction : InstructionView} {accounts : List (Address × Account)}
    (returned : ((withBudget harness small).processInstruction harness.bench instruction
      accounts).programResult = .ok ()) :
    SameRun harness small large harness.bench instruction accounts :=
  sameRun_of_le (billed_bench harness.hopper harness.costs) le returned

theorem bootstrapData_of_le {disc : UInt8} {address : Address} {len : Nat} {data : List UInt8}
    (booted : bootstrapData (harnessInvoke (withBudget harness small)) disc address len =
      .ok data) :
    bootstrapData (harnessInvoke (withBudget harness large)) disc address len = .ok data := by
  have returned : ((withBudget harness small).processInstruction harness.bench
      (bootstrapInstruction disc address) (zeroedFixture address len)).programResult = .ok () := by
    cases result : ((withBudget harness small).processInstruction harness.bench
      (bootstrapInstruction disc address) (zeroedFixture address len)).programResult with
    | ok _ => rfl
    | error shown =>
        have refused : (harnessInvoke (withBudget harness small) (bootstrapInstruction disc address)
          (zeroedFixture address len)).programResult = .error shown := result
        simp only [bootstrapData, refused] at booted
        cases booted
  have same := bench_sameRun le returned
  have ended : ((withBudget harness large).execute harness.bench (bootstrapInstruction disc address)
      (zeroedFixture address len)).1 =
    ((withBudget harness small).execute harness.bench (bootstrapInstruction disc address)
      (zeroedFixture address len)).1 :=
    (execute_of_programResult same.returns).trans (execute_of_programResult returned).symm
  have resulting : (harnessInvoke (withBudget harness large) (bootstrapInstruction disc address)
      (zeroedFixture address len)).resultingAccounts =
    (harnessInvoke (withBudget harness small) (bootstrapInstruction disc address)
      (zeroedFixture address len)).resultingAccounts := by
    change List.map _ _ = List.map _ _
    rw [show (withBudget harness large).bench = harness.bench from rfl, ended, same.state]
    rfl
  have largeReturns : (harnessInvoke (withBudget harness large) (bootstrapInstruction disc address)
    (zeroedFixture address len)).programResult = .ok () := same.returns
  have smallReturns : (harnessInvoke (withBudget harness small) (bootstrapInstruction disc address)
    (zeroedFixture address len)).programResult = .ok () := returned
  simp only [bootstrapData, smallReturns] at booted
  simp only [bootstrapData, largeReturns, resulting]
  exact booted

theorem measureDisc_of_le {vaultData procVaultData : List UInt8} {spec : Spec} {row : Row}
    (measured : measureDisc (harnessInvoke (withBudget harness small)) vaultData procVaultData
      spec = .ok row) :
    measureDisc (harnessInvoke (withBudget harness large)) vaultData procVaultData spec =
      .ok row := by
  have pushed : Pushed (withBudget harness small) vaultData procVaultData spec row :=
    pushed_of_measured measured
  have same := bench_sameRun le pushed.shown.accepted
  rcases measureDisc_cases (withBudget harness large) vaultData procVaultData spec with
    ⟨shown, refused, -⟩ | ⟨row', pushed', ran⟩
  · have returned : (whole (withBudget harness large) vaultData procVaultData spec).programResult =
      .ok () := same.returns
    rw [returned] at refused
    cases refused
  · rw [ran]
    have bracketed : row'.bracketedCu = row.bracketedCu := by
      by_cases unbracketed : spec.disc = 20
      · rw [pushed'.shown.unbracketed unbracketed, pushed.shown.unbracketed unbracketed]
      · obtain ⟨delta, read, figure⟩ := pushed.shown.bracketed unbracketed
        obtain ⟨delta', read', figure'⟩ := pushed'.shown.bracketed unbracketed
        have alike := sameRun_of_le (billedAlone harness spec.disc) le figure.returns
        have units : delta'.toNat = delta.toNat := by
          rw [figure'.units, figure.units]
          exact congrArg (fun consumed : UInt64 => consumed.toNat + harness.costs.logComputeUnits)
            alike.units
        rw [read, read', UInt64.toNat_inj.mp units]
    have wholeUnits : row'.wholeIxCu = row.wholeIxCu := by
      rw [pushed'.wholeUnits, pushed.wholeUnits]
      exact same.units
    obtain ⟨disc, name, claim⟩ := pushed.labels
    obtain ⟨disc', name', claim'⟩ := pushed'.labels
    exact congrArg Except.ok (Row.ext (disc'.trans disc.symm) (name'.trans name.symm) wholeUnits
      bracketed (pushed'.noNet.trans pushed.noNet.symm) (claim'.trans claim.symm))

end Runs

/-- A run of the runner that got through reports the same figures under every
larger budget. -/
theorem run_budget_independent {harness : Harness} {small large : UInt64}
    {reported : List Row × UInt64} (le : small ≤ large)
    (ok : run (harnessInvoke (withBudget harness small)) specs = .ok reported) :
    run (harnessInvoke (withBudget harness large)) specs = .ok reported := by
  obtain ⟨rows, overhead⟩ := reported
  obtain ⟨vaultData, procVaultData, pushed, vaultBooted, procBooted, ran, found, rfl⟩ :=
    run_eq_ok.mp ok
  have le : small.toNat ≤ large.toNat := UInt64.le_iff_toNat_le.mp le
  have ranLarge := Sweep.mapM_eq_ok.mpr
    ((Sweep.mapM_eq_ok.mp ran).imp fun _ _ measured => measureDisc_of_le le measured)
  exact run_eq_ok.mpr ⟨vaultData, procVaultData, pushed, bootstrapData_of_le le vaultBooted,
    bootstrapData_of_le le procBooted, ranLarge, found, rfl⟩

/-! ## A sample framework -/

def answered {R : Type} (units : Nat) (answer : R) : Call R := ⟨answer, units, []⟩

def granted {R : Type} (units : Nat) (c : Bool) (e : ProgramError) (answer : R) : Checked R :=
  ⟨if c then .ok answer else .error e, units, []⟩

def sampleLayoutId : List UInt8 := [1, 2, 3, 4, 5, 6, 7, 8]

def sampleHeader (disc : UInt8) : List UInt8 := [disc, 1, 0, 0] ++ sampleLayoutId ++ [0, 0, 0, 0]

/-- Checks of owner, flags and sizes, at the prices of the table. -/
def sampleHopper : Hopper where
  checkSigner := fun view => granted 20 view.isSigner .missingRequiredSignature ()
  checkWritable := fun view => granted 20 view.isWritable .immutable ()
  checkOwner := fun _ account programId =>
    granted 50 (account.owner = programId) .incorrectProgramId ()
  checkKeysEq := fun first second =>
    granted 40 (first.address = second.address) .invalidAccountData ()
  checkSignerFast := fun view => granted 12 view.isSigner .missingRequiredSignature ()
  layoutId := sampleLayoutId
  load := fun _ account programId => granted 120 (account.owner = programId) .incorrectProgramId ()
  overlay := fun data => granted 8 (benchVaultLen ≤ data.length) .accountDataTooSmall ()
  overlayMut := fun data => granted 8 (benchVaultLen ≤ data.length) .accountDataTooSmall ()
  writeInitHeader := fun data =>
    granted 30 (16 ≤ data.length) .accountDataTooSmall (sampleHeader 1 ++ data.drop 16)
  initHeader := fun data =>
    granted 30 (16 ≤ data.length) .accountDataTooSmall (sampleHeader 19 ++ data.drop 16)
  zeroInit := fun data => answered 15 (List.replicate data.length 0)
  emitSlices := fun _ => answered 100 ()
  strictLoad := fun programId _ len _ account =>
    granted 130 (account.owner = programId ∧ len ≤ account.data.length) .invalidAccountData ()
  podFromBytes := fun data => granted 6 (benchVaultLen ≤ data.length) .invalidAccountData ()
  readLayoutId := fun data =>
    granted 9 (16 ≤ data.length) .accountDataTooSmall ((data.drop 4).take 8)
  Receipt := Unit
  beginReceipt := fun _ _ => answered 20 ()
  setPhase := fun _ _ => answered 5 ()
  setCompatImpact := fun _ _ => answered 5 ()
  setValidationBundleId := fun _ _ => answered 5 ()
  setMigrationFlags := fun _ _ => answered 5 ()
  commit := fun _ _ => answered 30 ()
  toBytes := fun _ => answered 10 (List.replicate 64 0)
  Snapshot := Unit
  Diff := Unit
  capture := fun _ => answered 10 ()
  diff := fun _ _ => answered 15 ()
  hasChanges := fun _ => answered 5 false
  bindDeposit := fun _ accounts _ _ =>
    match accounts with
    | vault :: _ => answered 60 (.ok (vault, 1))
    | [] => answered 60 (.error .notEnoughAccountKeys)
  vaultBalanceMut := fun _ account =>
    granted 10 (procVaultLen ≤ account.data.length) .accountDataTooSmall ()

def sampleHarness : Harness where
  hopper := sampleHopper
  costs := ⟨fun _ => 25, 101, fun _ => 103, fun _ => 4⟩
  budget := 1400000
  opening := fun _ => []
  closing := fun _ _ _ => []
  shown := fun _ => "refused"

def sampleVault : List UInt8 := sampleHeader 1 ++ List.replicate 41 0

def sampleProcVault : List UInt8 := sampleHeader 19 ++ List.replicate 16 0

theorem sample_runs : ∃ reported,
    run (harnessInvoke (withBudget sampleHarness 200000)) specs = .ok reported := by
  have accepted : ∀ spec ∈ specs, (whole (withBudget sampleHarness 200000) sampleVault
      sampleProcVault spec).programResult = .ok () := by
    decide +kernel
  exact runs_of_accepted rfl rfl accepted

/-- A budget of 200000 units is enough for a report; with none the first bootstrap is
refused. -/
theorem run_reports_exactly_sample :
    (∃ rows overhead, Reported (withBudget sampleHarness 200000) rows overhead) ∧
      run (harnessInvoke (withBudget sampleHarness 0)) specs =
        .error "bootstrap disc 6 failed: refused" := by
  obtain ⟨⟨rows, overhead⟩, ok⟩ := sample_runs
  have refused : (bootstrapped (withBudget sampleHarness 0) 6 vaultAddress
    benchVaultLen).programResult = .error "refused" := by decide +kernel
  exact ⟨⟨rows, overhead, ((run_reports_exactly _).1 rows overhead).mp ok⟩,
    ((run_reports_exactly _).2 _).mpr (.vault refused)⟩

theorem run_budget_independent_sample : ∃ reported,
    run (harnessInvoke (withBudget sampleHarness 200000)) specs = .ok reported ∧
    run (harnessInvoke (withBudget sampleHarness 1400000)) specs = .ok reported := by
  obtain ⟨reported, ok⟩ := sample_runs
  exact ⟨reported, ok, run_budget_independent (by decide) ok⟩

end HopperBench.MeterBudget
