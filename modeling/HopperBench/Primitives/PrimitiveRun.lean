import HopperBench.Library.LittleEndian
import HopperBench.Library.Sweep
import HopperBench.Primitives.MeasuredBracket

/-!
# The run of the primitives runner

The runner bootstraps the data of its two fixtures through discs 6 and 20, runs
every disc twice, and subtracts the figure of the empty bracket from the others.
Under any harness its only failures are refused invocations, and every net
figure is exactly what the operation of its disc pays on its own.
-/

set_option autoImplicit false

namespace HopperBench.PrimitiveRun

open Metered HopperBench.Solana HopperBench.BracketedDelta HopperBench.BenchInstructions
  HopperBench.MeasuredBracket HopperBench.RouterBench

/-! ## The table of discs -/

def benchVaultLen : Nat := 57

def procVaultLen : Nat := 32

structure Spec extends DiscSpec where
  staleClaimCu : Option UInt64

/-- disc 19 argument: `amount = 1` as u64 LE. -/
def procDepositAmount : List UInt8 := List.ofFn (LittleEndian.u64Bytes 1)

def onVault (disc : UInt8) (name : String) (claim : UInt64) : Spec :=
  ⟨⟨disc, name, .vault, []⟩, some claim⟩

def specs : List Spec :=
  [onVault 0 "check_signer" 20,
    onVault 1 "check_writable" 20,
    onVault 2 "check_owner" 50,
    onVault 3 "check_account_tier1 (load)" 120,
    ⟨⟨4, "check_keys_eq", .vaultTwice, []⟩, some 40⟩,
    onVault 5 "overlay (57B)" 8,
    onVault 6 "write_header" 30,
    onVault 7 "zero_init (57B)" 15,
    onVault 8 "check_account_fast" 12,
    ⟨⟨9, "emit_event (32B)", .none, []⟩, some 100⟩,
    onVault 10 "trust_strict_load" 130,
    onVault 11 "pod_from_bytes (57B)" 6,
    onVault 12 "receipt_begin_commit (57B)" 50,
    onVault 13 "fingerprint_check" 15,
    onVault 14 "state_diff (57B)" 30,
    onVault 15 "overlay_mut + field_set" 10,
    onVault 16 "raw_cast_baseline (unsafe)" 4,
    onVault 17 "receipt_full (enriched)" 80,
    onVault 18 "receipt_emit (64B log)" 150,
    ⟨⟨19, "proc_macro_typed_dispatch", .procVault, procDepositAmount⟩, some 80⟩,
    ⟨⟨20, "write_proc_header (unbracketed)", .procVault, []⟩, none⟩,
    ⟨⟨21, "measurement_overhead", .none, []⟩, none⟩]

@[ext] structure Row where
  disc : UInt8
  name : String
  wholeIxCu : UInt64
  bracketedCu : Option UInt64
  netCu : Option UInt64
  staleClaimCu : Option UInt64

/-! ## The runner -/

/-- What the harness returns of one invocation, with the accounts after it. -/
structure Invoked extends Processed where
  resultingAccounts : List (Address × Account)

/-- `mollusk.process_instruction` on the primitives program. -/
abbrev Invoke := InstructionView → List (Address × Account) → Invoked

def bootstrapInstruction (disc : UInt8) (address : Address) : InstructionView :=
  ⟨programId, [signerMeta address], instructionData disc []⟩

def zeroedFixture (address : Address) (len : Nat) : List (Address × Account) :=
  [(address, fixtureAccount (List.replicate len 0))]

def bootstrapData (invoke : Invoke) (disc : UInt8) (address : Address) (len : Nat) :
    Except String (List UInt8) :=
  let result := invoke (bootstrapInstruction disc address) (zeroedFixture address len)
  match result.programResult with
  | .error shown => .error ("bootstrap disc " ++ toString disc ++ " failed: " ++ shown)
  | .ok _ =>
      match result.resultingAccounts.find? fun entry => entry.1 = address with
      | some entry => .ok entry.2.data
      | none =>
          .error ("bootstrap disc " ++ toString disc ++ ": fixture account missing from result")

/-- `{:?}` of what one run of a disc returned. -/
def showMeasured (measured : UInt64 × Option UInt64) : String :=
  "(" ++ toString measured.1 ++ ", " ++
    (match measured.2 with
    | some delta => "Some(" ++ toString delta ++ ")"
    | none => "None") ++ ")"

/-- One round of the loop over the specs. -/
def measureDisc (invoke : Invoke) (vaultData procVaultData : List UInt8) (spec : Spec) :
    Except String Row := do
  let processInstruction := fun instruction accounts => (invoke instruction accounts).toProcessed
  -- Run twice; the fixture is deterministic so CU must be stable.
  let first ← runDisc processInstruction spec.toDiscSpec vaultData procVaultData
  let second ← runDisc processInstruction spec.toDiscSpec vaultData procVaultData
  if first.1 ≠ second.1 ∨ first.2 ≠ second.2 then
    .error ("disc " ++ toString spec.disc ++ " (" ++ spec.name ++
      ") is not CU-stable across identical runs: " ++ showMeasured first ++ " vs " ++
      showMeasured second)
  else
    .ok ⟨spec.disc, spec.name, first.1, first.2, none, spec.staleClaimCu⟩

def overheadOf (rows : List Row) : Except String UInt64 :=
  match (rows.find? fun row => row.disc = 21).bind Row.bracketedCu with
  | some overhead => .ok overhead
  | none => .error "disc 21 (measurement_overhead) produced no bracketed delta"

def saturatingSub (a b : UInt64) : UInt64 := (CheckedWord.checkedSub a b).getD 0

def Row.withNet (overhead : UInt64) (row : Row) : Row :=
  { row with netCu := row.bracketedCu.map fun cu => saturatingSub cu overhead }

/-- `run`, up to the reports: the rows and the overhead they print. -/
def run (invoke : Invoke) (table : List Spec) : Except String (List Row × UInt64) := do
  let vaultData ← bootstrapData invoke 6 vaultAddress benchVaultLen
  let procVaultData ← bootstrapData invoke 20 procVaultAddress procVaultLen
  let rows ← table.mapM (measureDisc invoke vaultData procVaultData)
  let overhead ← overheadOf rows
  .ok (rows.map (Row.withNet overhead), overhead)

/-! ## The runner under a harness -/

def harnessInvoke (harness : Harness) : Invoke := fun instruction accounts =>
  let ran := harness.execute harness.bench instruction accounts
  { harness.processInstruction harness.bench instruction accounts with
    resultingAccounts := accounts.map fun entry =>
      (entry.1, match ran.1 with
        | .ok _ => ran.2.state.ledger entry.1
        | .error _ => ledgerOf accounts entry.1) }

def instructionOf (spec : Spec) : InstructionView :=
  ⟨programId, (spec.fixture.shape [] []).1, instructionData spec.disc spec.extraData⟩

def accountsOf (vaultData procVaultData : List UInt8) (spec : Spec) : List (Address × Account) :=
  (spec.fixture.shape vaultData procVaultData).2

def bootstrapped (harness : Harness) (disc : UInt8) (address : Address) (len : Nat) : Processed :=
  harness.processInstruction harness.bench (bootstrapInstruction disc address)
    (zeroedFixture address len)

/-- What the harness says of the instruction of a disc. -/
def whole (harness : Harness) (vaultData procVaultData : List UInt8) (spec : Spec) : Processed :=
  harness.processInstruction harness.bench (instructionOf spec)
    (accountsOf vaultData procVaultData spec)

/-- What it says of the operation of the disc on its own. -/
def alone (harness : Harness) (vaultData procVaultData : List UInt8) (spec : Spec) : Processed :=
  harness.processInstruction (harness.alone spec.disc) (instructionOf spec)
    (accountsOf vaultData procVaultData spec)

def bootstrapFailed (disc : UInt8) (shown : String) : String :=
  "bootstrap disc " ++ toString disc ++ " failed: " ++ shown

def discFailed (spec : Spec) (shown : String) : String :=
  "disc " ++ toString spec.disc ++ " (" ++ spec.name ++ ") failed: " ++ shown

/-- A row that reports its disc exactly. -/
structure Exact (harness : Harness) (vaultData procVaultData : List UInt8) (spec : Spec)
    (row : Row) : Prop where
  labels : row.disc = spec.disc ∧ row.name = spec.name ∧ row.staleClaimCu = spec.staleClaimCu
  accepted : (whole harness vaultData procVaultData spec).programResult = .ok ()
  wholeUnits : row.wholeIxCu = (whole harness vaultData procVaultData spec).computeUnitsConsumed
  unbracketed : spec.disc = 20 → row.bracketedCu = none ∧ row.netCu = none
  net : spec.disc ≠ 20 → (alone harness vaultData procVaultData spec).programResult = .ok () ∧
    row.netCu = some (alone harness vaultData procVaultData spec).computeUnitsConsumed
  bracketed : spec.disc ≠ 20 → ∃ delta, row.bracketedCu = some delta ∧
    delta.toNat = (alone harness vaultData procVaultData spec).computeUnitsConsumed.toNat +
      harness.costs.logComputeUnits

section Rows

variable (harness : Harness) (vaultData procVaultData : List UInt8) (spec : Spec)

theorem shape_metas : (spec.fixture.shape vaultData procVaultData).1 =
    (spec.fixture.shape [] []).1 := by
  cases spec.fixture <;> rfl

theorem runDisc_eq :
    runDisc (fun instruction accounts => (harnessInvoke harness instruction accounts).toProcessed)
        spec.toDiscSpec vaultData procVaultData =
      match (whole harness vaultData procVaultData spec).programResult with
      | .error shown => .error (discFailed spec shown)
      | .ok _ => (bracketedDelta (whole harness vaultData procVaultData spec).recorded).bind
          fun bracketed =>
            .ok ((whole harness vaultData procVaultData spec).computeUnitsConsumed, bracketed) := by
  unfold runDisc whole instructionOf accountsOf
  rw [← shape_metas vaultData procVaultData spec]
  rfl

structure Shown (bracketed : Option UInt64) : Prop where
  accepted : (whole harness vaultData procVaultData spec).programResult = .ok ()
  unbracketed : spec.disc = 20 → bracketed = none
  bracketed : spec.disc ≠ 20 → ∃ delta, bracketed = some delta ∧
    Figure harness (instructionOf spec) (accountsOf vaultData procVaultData spec) spec.disc delta

theorem runDisc_cases :
    (∃ shown, (whole harness vaultData procVaultData spec).programResult = .error shown ∧
      runDisc (fun instruction accounts =>
        (harnessInvoke harness instruction accounts).toProcessed) spec.toDiscSpec vaultData
          procVaultData = .error (discFailed spec shown)) ∨
    ∃ bracketed, Shown harness vaultData procVaultData spec bracketed ∧
      runDisc (fun instruction accounts =>
        (harnessInvoke harness instruction accounts).toProcessed) spec.toDiscSpec vaultData
          procVaultData =
        .ok ((whole harness vaultData procVaultData spec).computeUnitsConsumed, bracketed) := by
  rw [runDisc_eq]
  cases result : (whole harness vaultData procVaultData spec).programResult with
  | error shown => exact .inl ⟨shown, rfl, rfl⟩
  | ok returned =>
      have sent : (instructionOf spec).data = spec.disc :: spec.extraData := rfl
      right
      by_cases unbracketed : spec.disc = 20
      · rw [unbracketed] at sent
        have read : bracketedDelta (whole harness vaultData procVaultData spec).recorded =
            .ok none := unbracketed_of_returned sent result
        refine ⟨none, ⟨result, fun _ => rfl, fun other => absurd unbracketed other⟩, ?_⟩
        rw [read]
        rfl
      · obtain ⟨delta, shown, figure⟩ := figure_of_returned sent unbracketed result
        have read : bracketedDelta (whole harness vaultData procVaultData spec).recorded =
            .ok (some delta) := shown
        refine ⟨some delta, ⟨result, fun other => absurd other unbracketed,
          fun _ => ⟨delta, rfl, figure⟩⟩, ?_⟩
        rw [read]
        rfl

structure Pushed (row : Row) : Prop where
  labels : row.disc = spec.disc ∧ row.name = spec.name ∧ row.staleClaimCu = spec.staleClaimCu
  wholeUnits : row.wholeIxCu = (whole harness vaultData procVaultData spec).computeUnitsConsumed
  noNet : row.netCu = none
  shown : Shown harness vaultData procVaultData spec row.bracketedCu

theorem measureDisc_cases :
    (∃ shown, (whole harness vaultData procVaultData spec).programResult = .error shown ∧
      measureDisc (harnessInvoke harness) vaultData procVaultData spec =
        .error (discFailed spec shown)) ∨
    ∃ row, Pushed harness vaultData procVaultData spec row ∧
      measureDisc (harnessInvoke harness) vaultData procVaultData spec = .ok row := by
  unfold measureDisc
  rcases runDisc_cases harness vaultData procVaultData spec with
    ⟨shown, refused, failed⟩ | ⟨bracketed, shows, ran⟩
  · left
    refine ⟨shown, refused, ?_⟩
    simp only [failed]
    rfl
  · right
    refine ⟨⟨spec.disc, spec.name, _, bracketed, none, spec.staleClaimCu⟩,
      ⟨⟨rfl, rfl, rfl⟩, rfl, rfl, shows⟩, ?_⟩
    simp only [ran]
    exact if_neg fun unstable => unstable.elim (fun differ => differ rfl) fun differ => differ rfl

variable {harness vaultData procVaultData spec}

theorem pushed_of_measured {row : Row}
    (measured : measureDisc (harnessInvoke harness) vaultData procVaultData spec = .ok row) :
    Pushed harness vaultData procVaultData spec row := by
  rcases measureDisc_cases harness vaultData procVaultData spec with
    ⟨_, -, failed⟩ | ⟨row', pushed, ran⟩
  · rw [failed] at measured
    cases measured
  · rw [ran] at measured
    cases measured
    exact pushed

theorem measureDisc_eq_error {message : String} :
    measureDisc (harnessInvoke harness) vaultData procVaultData spec = .error message ↔
      ∃ shown, (whole harness vaultData procVaultData spec).programResult = .error shown ∧
        discFailed spec shown = message := by
  rcases measureDisc_cases harness vaultData procVaultData spec with
    ⟨shown, refused, failed⟩ | ⟨row, pushed, ran⟩
  · simp [refused, failed]
  · simp [pushed.shown.accepted, ran]

theorem measured_of_accepted {table : List Spec} (accepted : ∀ spec ∈ table,
    (whole harness vaultData procVaultData spec).programResult = .ok ()) :
    ∃ rows, Sweep.Measured (measureDisc (harnessInvoke harness) vaultData procVaultData) table
      rows := by
  refine Sweep.exists_measured.mpr fun spec member => ?_
  rcases measureDisc_cases harness vaultData procVaultData spec with
    ⟨_, refused, -⟩ | ⟨row, -, ran⟩
  · rw [accepted spec member] at refused
    cases refused
  · exact ⟨row, ran⟩

end Rows

theorem alone_overhead {harness : Harness} {vaultData procVaultData : List UInt8} {spec : Spec}
    (isOverhead : spec.disc = 21) :
    (alone harness vaultData procVaultData spec).computeUnitsConsumed = 0 := by
  have ran : alone harness vaultData procVaultData spec =
      harness.processInstruction (fun _ _ _ => pure ()) (instructionOf spec)
        (accountsOf vaultData procVaultData spec) := by
    unfold alone
    rw [isOverhead]
    rfl
  rw [ran]
  change harness.budget - UInt64.ofNat harness.budget.toNat = 0
  rw [UInt64.ofNat_toNat, UInt64.sub_self]

theorem overhead_of_pushed {harness : Harness} {vaultData procVaultData : List UInt8}
    {spec : Spec} {row : Row} (pushed : Pushed harness vaultData procVaultData spec row)
    (isOverhead : row.disc = 21) : ∃ overhead, row.bracketedCu = some overhead ∧
      overhead.toNat = harness.costs.logComputeUnits := by
  have disc : spec.disc = 21 := pushed.labels.1.symm.trans isOverhead
  obtain ⟨delta, read, figure⟩ := pushed.shown.bracketed (by rw [disc]; decide)
  refine ⟨delta, read, ?_⟩
  have nothing : (harness.processInstruction (harness.alone spec.disc) (instructionOf spec)
      (accountsOf vaultData procVaultData spec)).computeUnitsConsumed = 0 :=
    alone_overhead disc
  rw [figure.units, nothing]
  exact Nat.zero_add _

theorem exact_of_pushed {harness : Harness} {vaultData procVaultData : List UInt8} {spec : Spec}
    {row : Row} {overhead : UInt64} (value : overhead.toNat = harness.costs.logComputeUnits)
    (pushed : Pushed harness vaultData procVaultData spec row) :
    Exact harness vaultData procVaultData spec (row.withNet overhead) where
  labels := pushed.labels
  accepted := pushed.shown.accepted
  wholeUnits := pushed.wholeUnits
  unbracketed := by
    intro unbracketed
    have silent := pushed.shown.unbracketed unbracketed
    exact ⟨silent, by rw [Row.withNet, silent, Option.map_none]⟩
  net := by
    intro bracketed
    obtain ⟨delta, read, figure⟩ := pushed.shown.bracketed bracketed
    have units : delta.toNat =
      (alone harness vaultData procVaultData spec).computeUnitsConsumed.toNat +
        harness.costs.logComputeUnits := figure.units
    have subtracted : CheckedWord.checkedSub delta overhead =
        some (alone harness vaultData procVaultData spec).computeUnitsConsumed :=
      CheckedWord.checkedSub_eq_some.mpr (by omega)
    exact ⟨figure.returns, by rw [Row.withNet, read, Option.map_some, saturatingSub, subtracted,
      Option.getD_some]⟩
  bracketed := by
    intro bracketed
    obtain ⟨delta, read, figure⟩ := pushed.shown.bracketed bracketed
    exact ⟨delta, read, figure.units⟩

/-! ## The whole run -/

theorem bootstrapData_cases (harness : Harness) (disc : UInt8) (address : Address) (len : Nat) :
    (∃ shown, (bootstrapped harness disc address len).programResult = .error shown ∧
      bootstrapData (harnessInvoke harness) disc address len =
        .error (bootstrapFailed disc shown)) ∨
    (bootstrapped harness disc address len).programResult = .ok () ∧
      ∃ data, bootstrapData (harnessInvoke harness) disc address len = .ok data := by
  have found : ∃ after, (harnessInvoke harness (bootstrapInstruction disc address)
      (zeroedFixture address len)).resultingAccounts.find? (fun entry => entry.1 = address) =
        some (address, after) := by
    simp only [harnessInvoke, zeroedFixture, List.map_cons, List.find?_cons, decide_true]
    exact ⟨_, rfl⟩
  obtain ⟨after, found⟩ := found
  cases result : (bootstrapped harness disc address len).programResult with
  | error shown =>
      have reported : (harnessInvoke harness (bootstrapInstruction disc address)
        (zeroedFixture address len)).programResult = .error shown := result
      refine .inl ⟨shown, rfl, ?_⟩
      simp only [bootstrapData, reported]
      rfl
  | ok returned =>
      have reported : (harnessInvoke harness (bootstrapInstruction disc address)
        (zeroedFixture address len)).programResult = .ok returned := result
      refine .inr ⟨rfl, after.data, ?_⟩
      simp only [bootstrapData, reported, found]

theorem bootstrapData_eq_error {harness : Harness} {disc : UInt8} {address : Address} {len : Nat}
    {message : String} :
    bootstrapData (harnessInvoke harness) disc address len = .error message ↔
      ∃ shown, (bootstrapped harness disc address len).programResult = .error shown ∧
        bootstrapFailed disc shown = message := by
  rcases bootstrapData_cases harness disc address len with
    ⟨shown, refused, failed⟩ | ⟨returned, data, booted⟩
  · simp [refused, failed]
  · simp [returned, booted]

theorem overheadOf_of_pushed {harness : Harness} {vaultData procVaultData : List UInt8}
    {table : List Spec} {rows : List Row} (listed : ∃ spec ∈ table, spec.disc = 21)
    (pushed : List.Forall₂ (Pushed harness vaultData procVaultData) table rows) :
    ∃ overhead, overheadOf rows = .ok overhead ∧
      overhead.toNat = harness.costs.logComputeUnits := by
  induction pushed with
  | nil =>
      obtain ⟨_, impossible, -⟩ := listed
      cases impossible
  | @cons spec row table rows first rest ih =>
      unfold overheadOf
      rw [List.find?_cons]
      by_cases isOverhead : row.disc = 21
      · obtain ⟨overhead, read, value⟩ := overhead_of_pushed first isOverhead
        refine ⟨overhead, ?_, value⟩
        simp only [isOverhead, decide_true, Option.bind_some, read]
      · simp only [isOverhead, decide_false]
        refine ih ?_
        obtain ⟨spec', member, disc⟩ := listed
        rcases List.mem_cons.mp member with rfl | later
        · exact absurd (first.labels.1.trans disc) isOverhead
        · exact ⟨spec', later, disc⟩

theorem specs_overhead : ∃ spec ∈ specs, spec.disc = 21 := by
  refine ⟨⟨⟨21, "measurement_overhead", .none, []⟩, none⟩, ?_, rfl⟩
  simp [specs]

theorem run_eq_ok {invoke : Invoke} {table : List Spec} {rows : List Row} {overhead : UInt64} :
    run invoke table = .ok (rows, overhead) ↔ ∃ vaultData procVaultData pushed,
      bootstrapData invoke 6 vaultAddress benchVaultLen = .ok vaultData ∧
      bootstrapData invoke 20 procVaultAddress procVaultLen = .ok procVaultData ∧
      table.mapM (measureDisc invoke vaultData procVaultData) = .ok pushed ∧
      overheadOf pushed = .ok overhead ∧ rows = pushed.map (Row.withNet overhead) := by
  unfold run
  simp only [Sweep.bind_eq_ok, Except.ok.injEq, Prod.mk.injEq]
  constructor
  · rintro ⟨vaultData, vaultBooted, procVaultData, procBooted, pushed, ran, _, found, rfl, rfl⟩
    exact ⟨vaultData, procVaultData, pushed, vaultBooted, procBooted, ran, found, rfl⟩
  · rintro ⟨vaultData, procVaultData, pushed, vaultBooted, procBooted, ran, found, rfl⟩
    exact ⟨vaultData, vaultBooted, procVaultData, procBooted, pushed, ran, _, found, rfl, rfl⟩

structure Reported (harness : Harness) (rows : List Row) (overhead : UInt64) : Prop where
  overhead : overhead.toNat = harness.costs.logComputeUnits
  rows : ∃ vaultData procVaultData,
    bootstrapData (harnessInvoke harness) 6 vaultAddress benchVaultLen = .ok vaultData ∧
    bootstrapData (harnessInvoke harness) 20 procVaultAddress procVaultLen = .ok procVaultData ∧
    List.Forall₂ (Exact harness vaultData procVaultData) specs rows

/-- The first invocation of a run that the harness reports as failed, with the
message of the runner. -/
inductive Refusal (harness : Harness) : String → Prop where
  | vault {shown : String}
      (refused : (bootstrapped harness 6 vaultAddress benchVaultLen).programResult =
        .error shown) : Refusal harness (bootstrapFailed 6 shown)
  | procVault {vaultData : List UInt8} {shown : String}
      (vaultBooted : bootstrapData (harnessInvoke harness) 6 vaultAddress benchVaultLen =
        .ok vaultData)
      (refused : (bootstrapped harness 20 procVaultAddress procVaultLen).programResult =
        .error shown) : Refusal harness (bootstrapFailed 20 shown)
  | disc {vaultData procVaultData : List UInt8} {early late : List Spec} {spec : Spec}
      {shown : String}
      (vaultBooted : bootstrapData (harnessInvoke harness) 6 vaultAddress benchVaultLen =
        .ok vaultData)
      (procBooted : bootstrapData (harnessInvoke harness) 20 procVaultAddress procVaultLen =
        .ok procVaultData)
      (listed : specs = early ++ spec :: late)
      (accepted : ∀ before ∈ early,
        (whole harness vaultData procVaultData before).programResult = .ok ())
      (refused : (whole harness vaultData procVaultData spec).programResult = .error shown) :
      Refusal harness (discFailed spec shown)

section Run

variable {harness : Harness} {vaultData procVaultData : List UInt8} {rows : List Row}
  {overhead : UInt64}

theorem exact_unique : Relator.RightUnique (Exact harness vaultData procVaultData) := by
  intro spec row other first second
  obtain ⟨disc, name, claim⟩ := first.labels
  obtain ⟨disc', name', claim'⟩ := second.labels
  have figures : row.bracketedCu = other.bracketedCu ∧ row.netCu = other.netCu := by
    by_cases unbracketed : spec.disc = 20
    · obtain ⟨silent, noNet⟩ := first.unbracketed unbracketed
      obtain ⟨silent', noNet'⟩ := second.unbracketed unbracketed
      exact ⟨silent.trans silent'.symm, noNet.trans noNet'.symm⟩
    · obtain ⟨delta, read, units⟩ := first.bracketed unbracketed
      obtain ⟨delta', read', units'⟩ := second.bracketed unbracketed
      obtain rfl : delta = delta' := UInt64.toNat_inj.mp (units.trans units'.symm)
      exact ⟨read.trans read'.symm,
        (first.net unbracketed).2.trans (second.net unbracketed).2.symm⟩
  exact Row.ext (disc.trans disc'.symm) (name.trans name'.symm)
    (first.wholeUnits.trans second.wholeUnits.symm) figures.1 figures.2 (claim.trans claim'.symm)

theorem reported_of_run (ok : run (harnessInvoke harness) specs = .ok (rows, overhead)) :
    Reported harness rows overhead := by
  obtain ⟨vaultData, procVaultData, measured, vaultBooted, procBooted, ran, found, rfl⟩ :=
    run_eq_ok.mp ok
  have pushed : List.Forall₂ (Pushed harness vaultData procVaultData) specs measured :=
    (Sweep.mapM_eq_ok.mp ran).imp fun _ _ => pushed_of_measured
  obtain ⟨_, same, value⟩ := overheadOf_of_pushed specs_overhead pushed
  obtain rfl := Except.ok.inj (found.symm.trans same)
  refine ⟨value, vaultData, procVaultData, vaultBooted, procBooted, ?_⟩
  rw [List.forall₂_map_right_iff]
  exact pushed.imp fun _ _ each => exact_of_pushed value each

theorem runs_of_accepted
    (vaultBooted : bootstrapData (harnessInvoke harness) 6 vaultAddress benchVaultLen =
      .ok vaultData)
    (procBooted : bootstrapData (harnessInvoke harness) 20 procVaultAddress procVaultLen =
      .ok procVaultData)
    (accepted : ∀ spec ∈ specs, (whole harness vaultData procVaultData spec).programResult =
      .ok ()) : ∃ reported, run (harnessInvoke harness) specs = .ok reported := by
  obtain ⟨rows, measured⟩ := measured_of_accepted accepted
  obtain ⟨overhead, found, -⟩ := overheadOf_of_pushed specs_overhead
    (measured.imp fun _ _ => pushed_of_measured)
  exact ⟨_, run_eq_ok.mpr ⟨_, _, rows, vaultBooted, procBooted, Sweep.mapM_eq_ok.mpr measured,
    found, rfl⟩⟩

theorem accepted_of_exacts {table : List Spec}
    (exacts : List.Forall₂ (Exact harness vaultData procVaultData) table rows) :
    ∀ spec ∈ table, (whole harness vaultData procVaultData spec).programResult = .ok () :=
  ((List.forall₂_and_left table rows).mp
    (exacts.imp fun _ _ exact => ⟨exact.accepted, exact⟩)).1

theorem run_of_reported (reported : Reported harness rows overhead) :
    run (harnessInvoke harness) specs = .ok (rows, overhead) := by
  obtain ⟨value, vaultData, procVaultData, vaultBooted, procBooted, exacts⟩ := reported
  obtain ⟨⟨rows', overhead'⟩, ok⟩ :=
    runs_of_accepted vaultBooted procBooted (accepted_of_exacts exacts)
  obtain ⟨value', _, _, vaultBooted', procBooted', exacts'⟩ := reported_of_run ok
  obtain rfl := Except.ok.inj (vaultBooted.symm.trans vaultBooted')
  obtain rfl := Except.ok.inj (procBooted.symm.trans procBooted')
  have rowsExact : rows = rows' :=
    List.right_unique_forall₂' exact_unique exacts exacts'
  rw [ok, rowsExact, UInt64.toNat_inj.mp (value.trans value'.symm)]

theorem run_eq_error {message : String} :
    run (harnessInvoke harness) specs = .error message ↔ Refusal harness message := by
  unfold run
  simp only [Sweep.bind_eq_error, bootstrapData_eq_error, Sweep.mapM_eq_error,
    measureDisc_eq_error]
  constructor
  · rintro (⟨shown, refused, rfl⟩ | ⟨vaultData, vaultBooted, failed⟩)
    · exact .vault refused
    rcases failed with ⟨shown, refused, rfl⟩ | ⟨procVaultData, procBooted, failed⟩
    · exact .procVault vaultBooted refused
    rcases failed with ⟨early, spec, late, rows, listed, measured, shown, refused, rfl⟩ |
      ⟨rows, ran, failed⟩
    · refine .disc vaultBooted procBooted listed ?_ refused
      intro before member
      obtain ⟨_, ran⟩ := Sweep.exists_measured.mp ⟨rows, measured⟩ before member
      exact (pushed_of_measured ran).shown.accepted
    · -- disc 21 is in the table, so its figure is there
      obtain ⟨overhead, found, -⟩ := overheadOf_of_pushed specs_overhead
        ((Sweep.mapM_eq_ok.mp ran).imp fun _ _ => pushed_of_measured)
      rw [found] at failed
      rcases failed with impossible | ⟨_, _, impossible⟩ <;> cases impossible
  · intro refusal
    cases refusal with
    | vault refused => exact .inl ⟨_, refused, rfl⟩
    | procVault vaultBooted refused => exact .inr ⟨_, vaultBooted, .inl ⟨_, refused, rfl⟩⟩
    | disc vaultBooted procBooted listed accepted refused =>
        obtain ⟨rows, measured⟩ := measured_of_accepted accepted
        exact .inr ⟨_, vaultBooted, .inr ⟨_, procBooted, .inl
          ⟨_, _, _, rows, listed, measured, _, refused, rfl⟩⟩⟩

end Run

/-- A run reports exactly what its discs pay: every net figure is what the operation
of its disc consumes on its own, on the fixture that the program bootstrapped itself.
It fails exactly when one of its own invocations is refused, at the first of them. -/
theorem run_reports_exactly (harness : Harness) :
    (∀ rows overhead, run (harnessInvoke harness) specs = .ok (rows, overhead) ↔
      Reported harness rows overhead) ∧
    ∀ message, run (harnessInvoke harness) specs = .error message ↔ Refusal harness message :=
  ⟨fun _ _ => ⟨reported_of_run, run_of_reported⟩, fun _ => run_eq_error⟩

end HopperBench.PrimitiveRun
