import HopperBench.Library.Sweep
import HopperBench.Solana.Harness
import HopperBench.Vault.VaultRuns

/-!
# The vault runner

For each framework the runner executes every instruction of the contract on a
fresh fixture, once for each of eight users, checks what the harness reports,
and averages the compute units.  A metric is reported only for a program that
did on all fixtures what the contract says, and both programs of this workspace
get one.
-/

set_option autoImplicit false

namespace HopperBench.VaultRunner

open LittleEndian WordField HopperBench.Solana HopperBench.PinocchioVault
  HopperBench.WithdrawParity HopperBench.CounterParity HopperBench.VaultContract HopperBench.Harness
open RouteRun (Mollusk RowFailure lamportsFor)
open RouterBench (firstSeed ledgerOf sharedUser)

def userLamports : UInt64 := 10000000000

def depositAmount : UInt64 := 1000000000

def withdrawVaultLamports : UInt64 := 1000000000

def withdrawAmount : UInt64 := 500000000

def counterInitialValue : UInt64 := 7

/-- `ProgramSpec`, without the path of the binary. -/
structure VaultSpec extends ProgramSpec where
  supportsValidationWorkloads : Bool

structure FrameworkMetric where
  framework : String
  programId : Address
  authorizeCu : Option UInt64
  authorizeMissingSignatureCu : Option UInt64
  counterAccessCu : Option UInt64
  depositCu : UInt64
  withdrawCu : UInt64
  authorizeVsHopper : Option Int64
  counterAccessVsHopper : Option Int64
  depositVsHopper : Int64
  withdrawVsHopper : Int64
  binarySizeBytes : UInt64
  unsignedWithdrawRejected : Bool
deriving DecidableEq

/-! ## Fixtures -/

def userAccount : Account := ⟨userLamports, systemProgramId, []⟩

def vaultAccount (programId : Address) (lamports : UInt64) : Account := ⟨lamports, programId, []⟩

def counterVaultAccount (spec : ProgramSpec) (programId authority : Address) : Account :=
  let data := List.replicate (counterDataLenOf spec) 0
  let data :=
    if isAnchor spec then copyFromSlice 0 AnchorVault.counterStateDiscriminator data else data
  let data := copyFromSlice (counterAuthorityOffset spec) (List.ofFn authority) data
  let data := copyFromSlice (counterOffset spec) (List.ofFn (u64Bytes counterInitialValue)) data
  ⟨withdrawVaultLamports, programId, data⟩

section Runner

variable (find : FindProgramAddress) (mollusk : Mollusk)
  (program : Address → List AccountView → List UInt8 → Program Unit) (spec : ProgramSpec)

def depositFixture (user : Address) : Fixture :=
  let vault := vaultAddress find spec.programId user
  (depositInstruction spec user true vault systemProgramId depositAmount,
    [(user, userAccount), (vault, vaultAccount spec.programId 0),
      (systemProgramId, mollusk.loaderAccount systemProgramId)])

def authorizeFixture (signed : Bool) (user : Address) : Fixture :=
  let vault := vaultAddress find spec.programId user
  (authorizeInstruction spec user signed vault,
    [(user, userAccount), (vault, vaultAccount spec.programId withdrawVaultLamports)])

def counterAccessFixture (user : Address) : Fixture :=
  let vault := vaultAddress find spec.programId user
  (counterAccessInstruction spec user true vault,
    [(user, userAccount), (vault, counterVaultAccount spec spec.programId user)])

def withdrawFixture (signed : Bool) (user : Address) : Fixture :=
  let vault := vaultAddress find spec.programId user
  (withdrawInstruction spec user signed vault withdrawAmount,
    [(user, userAccount), (vault, vaultAccount spec.programId withdrawVaultLamports)])

/-! ## The cases -/

def runDepositCase (user : Address) : Except RowFailure UInt64 := do
  let vault := vaultAddress find spec.programId user
  let fixture := depositFixture find mollusk spec user
  let result := mollusk.processInstruction program fixture.1 fixture.2
  match result.programResult with
  | .error _ =>
      rowFailure (spec.framework ++ " deposit failed: " ++ mollusk.showResult result.programResult)
  | .ok _ =>
      let userAfter ← lamportsFor mollusk result.resultingAccounts user
      let vaultAfter ← lamportsFor mollusk result.resultingAccounts vault
      if userAfter ≠ userLamports - depositAmount then
        rowFailure (spec.framework ++ " deposit user lamports mismatch: expected " ++
          toString (userLamports - depositAmount) ++ ", got " ++ toString userAfter)
      else if vaultAfter ≠ depositAmount then
        rowFailure (spec.framework ++ " deposit vault lamports mismatch: expected " ++
          toString depositAmount ++ ", got " ++ toString vaultAfter)
      else
        .ok result.computeUnitsConsumed

def runAuthorizeCase (user : Address) : Except RowFailure UInt64 := do
  let vault := vaultAddress find spec.programId user
  let fixture := authorizeFixture find spec true user
  let result := mollusk.processInstruction program fixture.1 fixture.2
  match result.programResult with
  | .error _ =>
      rowFailure (spec.framework ++ " authorize failed: " ++
        mollusk.showResult result.programResult)
  | .ok _ =>
      let userAfter ← lamportsFor mollusk result.resultingAccounts user
      let vaultAfter ← lamportsFor mollusk result.resultingAccounts vault
      if userAfter ≠ userLamports ∨ vaultAfter ≠ withdrawVaultLamports then
        rowFailure (spec.framework ++ " authorize mutated balances unexpectedly: user " ++
          toString userAfter ++ ", vault " ++ toString vaultAfter)
      else
        .ok result.computeUnitsConsumed

def runAuthorizeMissingSignatureCase (user : Address) : Except RowFailure UInt64 := do
  let vault := vaultAddress find spec.programId user
  let fixture := authorizeFixture find spec false user
  let result := mollusk.processInstruction program fixture.1 fixture.2
  match result.programResult with
  | .ok _ =>
      rowFailure (spec.framework ++ " authorize missing-signature path unexpectedly succeeded")
  | .error _ =>
      let userAfter ← lamportsFor mollusk result.resultingAccounts user
      let vaultAfter ← lamportsFor mollusk result.resultingAccounts vault
      if userAfter ≠ userLamports ∨ vaultAfter ≠ withdrawVaultLamports then
        rowFailure (spec.framework ++
          " authorize missing-signature path mutated balances unexpectedly: user " ++
          toString userAfter ++ ", vault " ++ toString vaultAfter)
      else
        .ok result.computeUnitsConsumed

def runCounterAccessCase (user : Address) : Except RowFailure UInt64 := do
  let vault := vaultAddress find spec.programId user
  let fixture := counterAccessFixture find spec user
  let result := mollusk.processInstruction program fixture.1 fixture.2
  match result.programResult with
  | .error _ =>
      rowFailure (spec.framework ++ " counter access failed: " ++
        mollusk.showResult result.programResult)
  | .ok _ =>
      let userAfter ← lamportsFor mollusk result.resultingAccounts user
      let vaultAfter ← lamportsFor mollusk result.resultingAccounts vault
      let counterAfter ←
        orFailure (counterFor mollusk.showAddress spec result.resultingAccounts vault)
      if userAfter ≠ userLamports ∨ vaultAfter ≠ withdrawVaultLamports then
        rowFailure (spec.framework ++ " counter access mutated balances unexpectedly: user " ++
          toString userAfter ++ ", vault " ++ toString vaultAfter)
      else if counterAfter ≠ counterInitialValue + 1 then
        rowFailure (spec.framework ++ " counter access counter mismatch: expected " ++
          toString (counterInitialValue + 1) ++ ", got " ++ toString counterAfter)
      else
        .ok result.computeUnitsConsumed

def runWithdrawCase (user : Address) : Except RowFailure UInt64 := do
  let vault := vaultAddress find spec.programId user
  let fixture := withdrawFixture find spec true user
  let result := mollusk.processInstruction program fixture.1 fixture.2
  match result.programResult with
  | .error _ =>
      rowFailure (spec.framework ++ " withdraw failed: " ++ mollusk.showResult result.programResult)
  | .ok _ =>
      let userAfter ← lamportsFor mollusk result.resultingAccounts user
      let vaultAfter ← lamportsFor mollusk result.resultingAccounts vault
      if userAfter ≠ userLamports + withdrawAmount then
        rowFailure (spec.framework ++ " withdraw user lamports mismatch: expected " ++
          toString (userLamports + withdrawAmount) ++ ", got " ++ toString userAfter)
      else if vaultAfter ≠ withdrawVaultLamports - withdrawAmount then
        rowFailure (spec.framework ++ " withdraw vault lamports mismatch: expected " ++
          toString (withdrawVaultLamports - withdrawAmount) ++ ", got " ++ toString vaultAfter)
      else
        .ok result.computeUnitsConsumed

def runUnsignedWithdrawRejection (user : Address) : Except RowFailure Bool := do
  let vault := vaultAddress find spec.programId user
  let fixture := withdrawFixture find spec false user
  let result := mollusk.processInstruction program fixture.1 fixture.2
  match result.programResult with
  | .ok _ => .ok false
  | .error _ =>
      let userAfter ← lamportsFor mollusk result.resultingAccounts user
      let vaultAfter ← lamportsFor mollusk result.resultingAccounts vault
      .ok (userAfter == userLamports && vaultAfter == withdrawVaultLamports)

/-! ## One framework -/

/-- `SHARED_USER_CASES` -/
def sharedUsers : List Address := List.ofFn sharedUser

def averageCu (measure : Address → Except RowFailure UInt64) : Except RowFailure UInt64 :=
  Sweep.average measure (.failed (spec.framework ++ " CU total overflowed during averaging"))
    sharedUsers

end Runner

/-- A workload that a framework may not support. -/
def supported {A : Type} (supports : Bool) (x : Except RowFailure A) :
    Except RowFailure (Option A) :=
  if supports then do
    let a ← x
    .ok (some a)
  else .ok none

/-- `run_program`.  The size of the binary comes from the file system. -/
def runProgram (find : FindProgramAddress) (mollusk : Mollusk)
    (program : Address → List AccountView → List UInt8 → Program Unit)
    (binarySize : Except RowFailure UInt64) (spec : VaultSpec) :
    Except RowFailure FrameworkMetric := do
  let supports := spec.supportsValidationWorkloads
  let framework := spec.toProgramSpec
  let authorizeCu ← supported supports
    (averageCu framework (runAuthorizeCase find mollusk program framework))
  let authorizeMissingSignatureCu ← supported supports
    (averageCu framework (runAuthorizeMissingSignatureCase find mollusk program framework))
  let counterAccessCu ← supported supports
    (averageCu framework (runCounterAccessCase find mollusk program framework))
  let depositCu ← averageCu framework (runDepositCase find mollusk program framework)
  let withdrawCu ← averageCu framework (runWithdrawCase find mollusk program framework)
  let unsignedWithdrawRejected ←
    runUnsignedWithdrawRejection find mollusk program framework (sharedUser firstSeed)
  let binarySizeBytes ← binarySize
  .ok
    { framework := spec.framework
      programId := spec.programId
      authorizeCu
      authorizeMissingSignatureCu
      counterAccessCu
      depositCu
      withdrawCu
      authorizeVsHopper := none
      counterAccessVsHopper := none
      depositVsHopper := 0
      withdrawVsHopper := 0
      binarySizeBytes
      unsignedWithdrawRejected }

section Passes

variable (find : FindProgramAddress) (mollusk : Mollusk)
  (program : Address → List AccountView → List UInt8 → Program Unit) (spec : ProgramSpec)

def DepositPasses (user : Address) : Prop :=
  ∃ after, answerTo program (depositFixture find mollusk spec user) = .ok after ∧
    (after user).lamports = userLamports - depositAmount ∧
    (after (vaultAddress find spec.programId user)).lamports = depositAmount

def AuthorizePasses (user : Address) : Prop :=
  ∃ after, answerTo program (authorizeFixture find spec true user) = .ok after ∧
    (after user).lamports = userLamports ∧
    (after (vaultAddress find spec.programId user)).lamports = withdrawVaultLamports

def MissingSignaturePasses (user : Address) : Prop :=
  ∀ after, answerTo program (authorizeFixture find spec false user) ≠ .ok after

def CounterAccessPasses (user : Address) : Prop :=
  ∃ after, answerTo program (counterAccessFixture find spec user) = .ok after ∧
    counterFor mollusk.showAddress spec
        [(vaultAddress find spec.programId user, after (vaultAddress find spec.programId user))]
        (vaultAddress find spec.programId user) = .ok (counterInitialValue + 1) ∧
    (after user).lamports = userLamports ∧
    (after (vaultAddress find spec.programId user)).lamports = withdrawVaultLamports

def WithdrawPasses (user : Address) : Prop :=
  ∃ after, answerTo program (withdrawFixture find spec true user) = .ok after ∧
    (after user).lamports = userLamports + withdrawAmount ∧
    (after (vaultAddress find spec.programId user)).lamports =
      withdrawVaultLamports - withdrawAmount

end Passes

section Answers

variable {find : FindProgramAddress} {mollusk : Mollusk}
  {program : Address → List AccountView → List UInt8 → Program Unit} {spec : ProgramSpec}
  {user : Address} {units : UInt64}

theorem runDepositCase_eq_ok :
    runDepositCase find mollusk program spec user = .ok units ↔
      DepositPasses find mollusk program spec user ∧
        unitsOf mollusk (depositFixture find mollusk spec user) = units := by
  obtain ⟨userRead, vaultRead⟩ := lamportsFor_reported mollusk program
    (depositFixture find mollusk spec user) rfl
  have result : (mollusk.processInstruction program (depositFixture find mollusk spec user).1
    (depositFixture find mollusk spec user).2).programResult = _ := programResult_eq _
  unfold runDepositCase DepositPasses
  cases answer : answerTo program (depositFixture find mollusk spec user) with
  | error abort =>
      rw [answer] at result
      simp [result, rowFailure]
  | ok after =>
      rw [reported_of_ok answer] at userRead vaultRead
      rw [answer] at result
      simp only [result, userRead, vaultRead, Sweep.bind_eq_ok, check_eq_ok, Except.ok.injEq,
        exists_eq_left', not_not, ne_eq, and_assoc]
      rfl

theorem runAuthorizeCase_eq_ok :
    runAuthorizeCase find mollusk program spec user = .ok units ↔
      AuthorizePasses find program spec user ∧
        unitsOf mollusk (authorizeFixture find spec true user) = units := by
  obtain ⟨userRead, vaultRead⟩ := lamportsFor_reported mollusk program
    (authorizeFixture find spec true user) rfl
  have result : (mollusk.processInstruction program (authorizeFixture find spec true user).1
    (authorizeFixture find spec true user).2).programResult = _ := programResult_eq _
  unfold runAuthorizeCase AuthorizePasses
  cases answer : answerTo program (authorizeFixture find spec true user) with
  | error abort =>
      rw [answer] at result
      simp [result, rowFailure]
  | ok after =>
      rw [reported_of_ok answer] at userRead vaultRead
      rw [answer] at result
      simp only [result, userRead, vaultRead, Sweep.bind_eq_ok, check_eq_ok, Except.ok.injEq,
        exists_eq_left', not_or, not_not, ne_eq]
      rfl

theorem runWithdrawCase_eq_ok :
    runWithdrawCase find mollusk program spec user = .ok units ↔
      WithdrawPasses find program spec user ∧
        unitsOf mollusk (withdrawFixture find spec true user) = units := by
  obtain ⟨userRead, vaultRead⟩ := lamportsFor_reported mollusk program
    (withdrawFixture find spec true user) rfl
  have result : (mollusk.processInstruction program (withdrawFixture find spec true user).1
    (withdrawFixture find spec true user).2).programResult = _ := programResult_eq _
  unfold runWithdrawCase WithdrawPasses
  cases answer : answerTo program (withdrawFixture find spec true user) with
  | error abort =>
      rw [answer] at result
      simp [result, rowFailure]
  | ok after =>
      rw [reported_of_ok answer] at userRead vaultRead
      rw [answer] at result
      simp only [result, userRead, vaultRead, Sweep.bind_eq_ok, check_eq_ok, Except.ok.injEq,
        exists_eq_left', not_not, ne_eq, and_assoc]
      rfl

theorem counterFor_reported (mollusk : Mollusk)
    (program : Address → List AccountView → List UInt8 → Program Unit) (spec : ProgramSpec)
    (fixture : Fixture) {a b : Address} {x y : Account}
    {rest : List (Address × Account)} (listed : fixture.2 = (a, x) :: (b, y) :: rest) :
    counterFor mollusk.showAddress spec
        (mollusk.processInstruction program fixture.1 fixture.2).resultingAccounts b =
      counterFor mollusk.showAddress spec [(b, reportedLedger program fixture b)] b := by
  have isListed : b ∈ fixture.2.map Prod.fst := by simp [listed]
  obtain ⟨entry, found, _, same⟩ := RouteRun.find_listed isListed
  have composed : ((fun other : Address × Account => decide (other.1 = b)) ∘
      fun entry : Address × Account => (entry.1, reportedLedger program fixture entry.1)) =
        fun other => decide (other.1 = b) := rfl
  rw [resultingAccounts_eq, counterFor, counterFor, List.find?_map, composed, found,
    Option.map_some, same]
  simp

theorem runCounterAccessCase_eq_ok :
    runCounterAccessCase find mollusk program spec user = .ok units ↔
      CounterAccessPasses find mollusk program spec user ∧
        unitsOf mollusk (counterAccessFixture find spec user) = units := by
  obtain ⟨userRead, vaultRead⟩ := lamportsFor_reported mollusk program
    (counterAccessFixture find spec user) rfl
  have counterRead := counterFor_reported mollusk program spec
    (counterAccessFixture find spec user) rfl
  have result : (mollusk.processInstruction program (counterAccessFixture find spec user).1
    (counterAccessFixture find spec user).2).programResult = _ := programResult_eq _
  unfold runCounterAccessCase CounterAccessPasses
  cases answer : answerTo program (counterAccessFixture find spec user) with
  | error abort =>
      rw [answer] at result
      simp [result, rowFailure]
  | ok after =>
      rw [reported_of_ok answer] at userRead vaultRead counterRead
      rw [answer] at result
      simp only [result, userRead, vaultRead, counterRead, Sweep.bind_eq_ok, orFailure_eq_ok,
        check_eq_ok, Except.ok.injEq, exists_eq_left', not_or, not_not, ne_eq]
      constructor
      · intro given
        obtain ⟨counter, read, balances, rfl, counted⟩ := given
        exact ⟨⟨read, balances⟩, counted⟩
      · intro given
        obtain ⟨⟨read, balances⟩, counted⟩ := given
        exact ⟨_, read, balances, rfl, counted⟩

/-! A refused instruction leaves the fixture's balances, if user and vault differ. -/

theorem ledgerOf_pair {user vault : Address} (distinct : user ≠ vault) (x y : Account) :
    ledgerOf [(user, x), (vault, y)] user = x ∧ ledgerOf [(user, x), (vault, y)] vault = y := by
  simp [ledgerOf, distinct]

theorem refused_keeps {fixture : Fixture} {abort : Abort} {user vault programId : Address}
    (answer : answerTo program fixture = .error abort)
    (listed : fixture.2 =
      [(user, userAccount), (vault, vaultAccount programId withdrawVaultLamports)])
    (distinct : user ≠ vault) :
    (reportedLedger program fixture user).lamports = userLamports ∧
      (reportedLedger program fixture vault).lamports = withdrawVaultLamports := by
  obtain ⟨userKept, vaultKept⟩ := ledgerOf_pair distinct userAccount
    (vaultAccount programId withdrawVaultLamports)
  rw [reported_of_error answer, listed, userKept, vaultKept]
  exact ⟨rfl, rfl⟩

theorem runAuthorizeMissingSignatureCase_eq_ok
    (distinct : user ≠ vaultAddress find spec.programId user) :
    runAuthorizeMissingSignatureCase find mollusk program spec user = .ok units ↔
      MissingSignaturePasses find program spec user ∧
        unitsOf mollusk (authorizeFixture find spec false user) = units := by
  obtain ⟨userRead, vaultRead⟩ := lamportsFor_reported mollusk program
    (authorizeFixture find spec false user) rfl
  have result : (mollusk.processInstruction program (authorizeFixture find spec false user).1
    (authorizeFixture find spec false user).2).programResult = _ := programResult_eq _
  unfold runAuthorizeMissingSignatureCase MissingSignaturePasses
  cases answer : answerTo program (authorizeFixture find spec false user) with
  | ok after =>
      rw [answer] at result
      simp [result, rowFailure]
  | error abort =>
      obtain ⟨userKept, vaultKept⟩ := refused_keeps answer rfl distinct
      rw [userKept] at userRead
      rw [vaultKept] at vaultRead
      rw [answer] at result
      simp only [result, userRead, vaultRead, Sweep.bind_eq_ok, check_eq_ok, Except.ok.injEq,
        exists_eq_left', not_or, not_not, ne_eq, reduceCtorEq, not_false_eq_true, true_and,
        implies_true]
      rfl

theorem runUnsignedWithdrawRejection_eq_ok
    (distinct : user ≠ vaultAddress find spec.programId user) {rejected : Bool} :
    runUnsignedWithdrawRejection find mollusk program spec user = .ok rejected ↔
      (rejected = true ↔
        ∀ after, answerTo program (withdrawFixture find spec false user) ≠ .ok after) := by
  obtain ⟨userRead, vaultRead⟩ := lamportsFor_reported mollusk program
    (withdrawFixture find spec false user) rfl
  have result : (mollusk.processInstruction program (withdrawFixture find spec false user).1
    (withdrawFixture find spec false user).2).programResult = _ := programResult_eq _
  unfold runUnsignedWithdrawRejection
  cases answer : answerTo program (withdrawFixture find spec false user) with
  | ok after =>
      rw [answer] at result
      simp [result, eq_comm]
  | error abort =>
      obtain ⟨userKept, vaultKept⟩ := refused_keeps answer rfl distinct
      rw [userKept] at userRead
      rw [vaultKept] at vaultRead
      rw [answer] at result
      simp only [result, userRead, vaultRead, Sweep.bind_eq_ok, Except.ok.injEq, exists_eq_left',
        beq_self_eq_true, Bool.and_self, ne_eq, reduceCtorEq, not_false_eq_true, implies_true,
        iff_true]
      exact eq_comm

end Answers

/-! ## What a metric says -/

/-- All eight users passed, and `units` is the whole-number mean of what the
harness counted for them. -/
def Averaged (mollusk : Mollusk) (fixture : Address → Fixture) (passes : Address → Prop)
    (units : UInt64) : Prop :=
  let total := Sweep.sum (sharedUsers.map fun user => unitsOf mollusk (fixture user))
  (∀ user ∈ sharedUsers, passes user) ∧ total < 2 ^ 64 ∧ units.toNat = total / 8

/-- A figure of a workload that a framework may not support. -/
def Optional (supports : Bool) (averaged : UInt64 → Prop) (figure : Option UInt64) : Prop :=
  if supports then ∃ units, figure = some units ∧ averaged units else figure = none

/-- What the metric of a program says. -/
structure Reports (find : FindProgramAddress) (mollusk : Mollusk)
    (program : Address → List AccountView → List UInt8 → Program Unit)
    (binarySize : Except RowFailure UInt64) (spec : VaultSpec) (metric : FrameworkMetric) :
    Prop where
  framework : metric.framework = spec.framework
  programId : metric.programId = spec.programId
  authorize : Optional spec.supportsValidationWorkloads
    (Averaged mollusk (authorizeFixture find spec.toProgramSpec true)
      (AuthorizePasses find program spec.toProgramSpec)) metric.authorizeCu
  missingSignature : Optional spec.supportsValidationWorkloads
    (Averaged mollusk (authorizeFixture find spec.toProgramSpec false)
      (MissingSignaturePasses find program spec.toProgramSpec))
    metric.authorizeMissingSignatureCu
  counterAccess : Optional spec.supportsValidationWorkloads
    (Averaged mollusk (counterAccessFixture find spec.toProgramSpec)
      (CounterAccessPasses find mollusk program spec.toProgramSpec)) metric.counterAccessCu
  deposit : Averaged mollusk (depositFixture find mollusk spec.toProgramSpec)
    (DepositPasses find mollusk program spec.toProgramSpec) metric.depositCu
  withdraw : Averaged mollusk (withdrawFixture find spec.toProgramSpec true)
    (WithdrawPasses find program spec.toProgramSpec) metric.withdrawCu
  rejected : metric.unsignedWithdrawRejected = true ↔
    ∀ after, answerTo program
      (withdrawFixture find spec.toProgramSpec false (sharedUser firstSeed)) ≠ .ok after
  binarySize : binarySize = .ok metric.binarySizeBytes
  uncompared : metric.authorizeVsHopper = none ∧ metric.counterAccessVsHopper = none ∧
    metric.depositVsHopper = 0 ∧ metric.withdrawVsHopper = 0

theorem supported_eq_ok {supports : Bool} {x : Except RowFailure UInt64}
    {averaged : UInt64 → Prop} (exact : ∀ units, x = .ok units ↔ averaged units)
    {figure : Option UInt64} :
    supported supports x = .ok figure ↔ Optional supports averaged figure := by
  unfold supported Optional
  cases supports with
  | false => simp [eq_comm]
  | true =>
      simp only [if_true, Sweep.bind_eq_ok, exact, Except.ok.injEq]
      constructor
      · intro given
        obtain ⟨units, averaged, same⟩ := given
        exact ⟨units, same.symm, averaged⟩
      · intro given
        obtain ⟨units, same, averaged⟩ := given
        exact ⟨units, averaged, same.symm⟩

theorem averageCu_eq_ok {mollusk : Mollusk} {spec : ProgramSpec}
    {measure : Address → Except RowFailure UInt64} {fixture : Address → Fixture}
    {passes : Address → Prop}
    (exact : ∀ user ∈ sharedUsers, ∀ units, measure user = .ok units ↔
      passes user ∧ unitsOf mollusk (fixture user) = units) (units : UInt64) :
    averageCu spec measure = .ok units ↔ Averaged mollusk fixture passes units := by
  have few : sharedUsers.length = 8 := List.length_ofFn
  rw [averageCu, Sweep.average_of_known (by rw [few]; decide) exact, few]
  rfl

section Figures

variable {find : FindProgramAddress} {mollusk : Mollusk}
  {program : Address → List AccountView → List UInt8 → Program Unit}
  {binarySize : Except RowFailure UInt64} {spec : VaultSpec}

theorem averageCu_authorize (units : UInt64) :
    averageCu spec.toProgramSpec (runAuthorizeCase find mollusk program spec.toProgramSpec) =
        .ok units ↔
      Averaged mollusk (authorizeFixture find spec.toProgramSpec true)
        (AuthorizePasses find program spec.toProgramSpec) units :=
  averageCu_eq_ok (fun _ _ _ => runAuthorizeCase_eq_ok) units

theorem averageCu_missingSignature
    (distinct : ∀ user ∈ sharedUsers, user ≠ vaultAddress find spec.programId user)
    (units : UInt64) :
    averageCu spec.toProgramSpec
        (runAuthorizeMissingSignatureCase find mollusk program spec.toProgramSpec) = .ok units ↔
      Averaged mollusk (authorizeFixture find spec.toProgramSpec false)
        (MissingSignaturePasses find program spec.toProgramSpec) units :=
  averageCu_eq_ok (fun user member _ =>
    runAuthorizeMissingSignatureCase_eq_ok (distinct user member)) units

theorem averageCu_counterAccess (units : UInt64) :
    averageCu spec.toProgramSpec (runCounterAccessCase find mollusk program spec.toProgramSpec) =
        .ok units ↔
      Averaged mollusk (counterAccessFixture find spec.toProgramSpec)
        (CounterAccessPasses find mollusk program spec.toProgramSpec) units :=
  averageCu_eq_ok (fun _ _ _ => runCounterAccessCase_eq_ok) units

theorem averageCu_deposit (units : UInt64) :
    averageCu spec.toProgramSpec (runDepositCase find mollusk program spec.toProgramSpec) =
        .ok units ↔
      Averaged mollusk (depositFixture find mollusk spec.toProgramSpec)
        (DepositPasses find mollusk program spec.toProgramSpec) units :=
  averageCu_eq_ok (fun _ _ _ => runDepositCase_eq_ok) units

theorem averageCu_withdraw (units : UInt64) :
    averageCu spec.toProgramSpec (runWithdrawCase find mollusk program spec.toProgramSpec) =
        .ok units ↔
      Averaged mollusk (withdrawFixture find spec.toProgramSpec true)
        (WithdrawPasses find program spec.toProgramSpec) units :=
  averageCu_eq_ok (fun _ _ _ => runWithdrawCase_eq_ok) units

theorem sharedUser_listed : sharedUser firstSeed ∈ sharedUsers := List.mem_ofFn.mpr ⟨firstSeed, rfl⟩

theorem reports_of_runProgram
    (distinct : ∀ user ∈ sharedUsers, user ≠ vaultAddress find spec.programId user)
    {metric : FrameworkMetric}
    (reported : runProgram find mollusk program binarySize spec = .ok metric) :
    Reports find mollusk program binarySize spec metric := by
  simp only [runProgram, Sweep.bind_eq_ok, supported_eq_ok averageCu_authorize,
    supported_eq_ok (averageCu_missingSignature distinct), supported_eq_ok averageCu_counterAccess,
    averageCu_deposit, averageCu_withdraw,
    runUnsignedWithdrawRejection_eq_ok (distinct _ sharedUser_listed)] at reported
  obtain ⟨_, authorized, _, missing, _, counted, _, deposited, _, withdrew, _, refused, _, sized,
    built⟩ := reported
  cases built
  exact ⟨rfl, rfl, authorized, missing, counted, deposited, withdrew, refused, sized, rfl, rfl,
    rfl, rfl⟩

theorem runProgram_of_reports
    (distinct : ∀ user ∈ sharedUsers, user ≠ vaultAddress find spec.programId user)
    {metric : FrameworkMetric} (reports : Reports find mollusk program binarySize spec metric) :
    runProgram find mollusk program binarySize spec = .ok metric := by
  simp only [runProgram, Sweep.bind_eq_ok, supported_eq_ok averageCu_authorize,
    supported_eq_ok (averageCu_missingSignature distinct), supported_eq_ok averageCu_counterAccess,
    averageCu_deposit, averageCu_withdraw,
    runUnsignedWithdrawRejection_eq_ok (distinct _ sharedUser_listed)]
  obtain ⟨_, _, authorizeCu, missingCu, counterCu, depositCu, withdrawCu, _, _, _, _, size,
    answer⟩ := metric
  obtain ⟨rfl, rfl, authorized, missing, counted, deposited, withdrew, refused, sized, rfl, rfl,
    rfl, rfl⟩ := reports
  exact ⟨authorizeCu, authorized, missingCu, missing, counterCu, counted, depositCu, deposited,
    withdrawCu, withdrew, answer, refused, size, sized, rfl⟩

end Figures

/-- A metric is reported exactly when it says what the program did: for every
figure all eight users' instructions passed, and the figure is their mean. -/
theorem run_program_reports (find : FindProgramAddress) (mollusk : Mollusk)
    (program : Address → List AccountView → List UInt8 → Program Unit)
    (binarySize : Except RowFailure UInt64) (spec : VaultSpec)
    (distinct : ∀ user ∈ sharedUsers, user ≠ vaultAddress find spec.programId user)
    (metric : FrameworkMetric) :
    runProgram find mollusk program binarySize spec = .ok metric ↔
      Reports find mollusk program binarySize spec metric :=
  ⟨reports_of_runProgram distinct, runProgram_of_reports distinct⟩

def pinocchioMetric : FrameworkMetric :=
  ⟨"pinocchio", fun _ => 3, some 5000, some 5000, some 5000, 5000, 5000, none, none, 0, 0, 4096,
    true⟩

theorem sharedUsers_apart (programId : Address) :
    ∀ user ∈ sharedUsers, user ≠ vaultAddress sampleDerivation programId user := by
  have shifted : ∀ byte : UInt8, byte ≠ byte + 100 := by decide +kernel
  intro user member same
  obtain ⟨seed, rfl⟩ := List.mem_ofFn.mp member
  exact shifted _ (congrFun same 0)

theorem run_program_reports_pinocchio :
    Reports sampleDerivation RouteRun.plainMollusk
      (processInstruction sampleDerivation Accounting.systemTransfer) (.ok 4096)
      ⟨⟨"pinocchio", fun _ => 3⟩, true⟩ pinocchioMetric :=
  (run_program_reports sampleDerivation RouteRun.plainMollusk
    (processInstruction sampleDerivation Accounting.systemTransfer) (.ok 4096)
    ⟨⟨"pinocchio", fun _ => 3⟩, true⟩ (sharedUsers_apart _) pinocchioMetric).mp
    (by decide +kernel)

section Contract

open VaultRuns

variable {find : FindProgramAddress} {mollusk : Mollusk} {ids : Framework → Address}
  {framework : Framework} {user : Address}

theorem copyFromSlice_between (front : List UInt8) {old bytes back : List UInt8}
    (sized : old.length = bytes.length) :
    copyFromSlice front.length bytes (front ++ (old ++ back)) = front ++ (bytes ++ back) := by
  rw [copyFromSlice, List.take_left, ← sized, ← List.drop_drop, List.drop_left, List.drop_left,
    List.append_assoc]

theorem copied_behind (header : List UInt8) (user : Address) (word : UInt64) :
    copyFromSlice (header.length + 32) (List.ofFn (u64Bytes word))
        (copyFromSlice header.length (List.ofFn user) (header ++ List.replicate 40 0)) =
      header ++ (List.ofFn user ++ List.ofFn (u64Bytes word)) := by
  have zeros : List.replicate 40 (0 : UInt8) = List.replicate 32 0 ++ List.replicate 8 0 := rfl
  have size : (List.ofFn user).length = 32 := List.length_ofFn
  have wordSize : (List.ofFn (u64Bytes word)).length = 8 := List.length_ofFn
  have authority : copyFromSlice header.length (List.ofFn user)
      (header ++ (List.replicate 32 0 ++ List.replicate 8 0)) =
        header ++ (List.ofFn user ++ List.replicate 8 0) :=
    copyFromSlice_between header (List.length_replicate.trans size.symm)
  have counter : copyFromSlice (header ++ List.ofFn user).length (List.ofFn (u64Bytes word))
      (header ++ List.ofFn user ++ (List.replicate 8 0 ++ [])) =
        header ++ List.ofFn user ++ (List.ofFn (u64Bytes word) ++ []) :=
    copyFromSlice_between _ (List.length_replicate.trans wordSize.symm)
  rw [List.length_append, size, List.append_nil, List.append_nil, List.append_assoc,
    List.append_assoc] at counter
  rw [zeros, authority, counter]

theorem counterVaultAccount_data (programId : Address) :
    (counterVaultAccount (framework.spec ids) programId user).data =
      framework.header ++ (List.ofFn user ++ List.ofFn (u64Bytes counterInitialValue)) := by
  cases framework with
  | pinocchio => exact copied_behind [] user counterInitialValue
  | anchor => exact copied_behind AnchorVault.counterStateDiscriminator user counterInitialValue

/-- What a program that obeys the contract does on the fixtures. -/
structure Passes (find : FindProgramAddress) (mollusk : Mollusk)
    (program : Address → List AccountView → List UInt8 → Program Unit) (spec : ProgramSpec)
    (user : Address) : Prop where
  deposit : DepositPasses find mollusk program spec user
  authorize : AuthorizePasses find program spec user
  missingSignature : MissingSignaturePasses find program spec user
  counterAccess : CounterAccessPasses find mollusk program spec user
  withdraw : WithdrawPasses find program spec user
  unsignedWithdraw : ∀ after, answerTo program (withdrawFixture find spec false user) ≠ .ok after

theorem counterOf_fixture (programId : Address) :
    counterOf framework.header user
      (counterVaultAccount (framework.spec ids) programId user).data = some 7 := by
  have size : (List.ofFn user).length = 32 := List.length_ofFn
  have wordSize : (List.ofFn (u64Bytes counterInitialValue)).length = 8 := List.length_ofFn
  have stored : wordAt 32 (List.ofFn user ++ List.ofFn (u64Bytes counterInitialValue)) =
      counterInitialValue := by
    rw [wordAt, List.drop_left' size, List.take_of_length_le (by rw [wordSize]),
      u64OfBytes_u64Bytes]
  have authority : (List.ofFn user ++ List.ofFn (u64Bytes counterInitialValue)).take 32 =
      List.ofFn user := List.take_left' size
  have long : framework.header.length + 40 ≤ (framework.header ++
      (List.ofFn user ++ List.ofFn (u64Bytes counterInitialValue))).length := by
    rw [List.length_append, List.length_append, size, wordSize]
  rw [counterVaultAccount_data, counterOf, List.take_left, List.drop_left, wordAt_append rfl,
    stored, authority, if_pos ⟨rfl, long, rfl⟩]
  rfl

theorem counterFor_carried {showAddress : Address → String} {vault : Address} {account : Account}
    {word : UInt64} (carries : counterOf framework.header user account.data = some word.toNat) :
    counterFor showAddress (framework.spec ids) [(vault, account)] vault = .ok word := by
  have size : counterDataLenOf (framework.spec ids) = framework.header.length + 40 := by
    cases framework <;> rfl
  have offset : counterOffset (framework.spec ids) = framework.header.length + 32 := by
    cases framework <;> rfl
  unfold counterOf at carries
  split at carries
  case isTrue conditions =>
    rw [counterFor_listed (size.le.trans conditions.2.1), offset]
    exact congrArg Except.ok (UInt64.toNat_inj.mp (Option.some.inj carries))
  case isFalse => cases carries

section Obeying

variable {program : Address → List AccountView → List UInt8 → Program Unit} {ledger : Ledger}
  (obeys : Obeys find (framework.spec ids) framework.header program)
  (distinct : user ≠ vaultAddress find (framework.spec ids).programId user)
  (userStart : ledger user = userAccount)
include obeys distinct userStart

theorem deposit_passes
    (vaultStart : ledger (vaultAddress find (framework.spec ids).programId user) =
      vaultAccount (framework.spec ids).programId 0) :
    ∃ after, calleeOf program ledger (instructionOf find (framework.spec ids)
        ⟨user, true, .deposit depositAmount⟩) = .ok after ∧
      (after user).lamports = userLamports - depositAmount ∧
      (after (vaultAddress find (framework.spec ids).programId user)).lamports =
        depositAmount := by
  have covers : depositAmount.toNat ≤ ledger.balances user := by
    rw [Ledger.balances, userStart]
    decide
  have room : ledger.balances (vaultAddress find (framework.spec ids).programId user) +
      depositAmount.toNat < 2 ^ 64 := by
    rw [Ledger.balances, vaultStart]
    exact (by decide : (0 : UInt64).toNat + depositAmount.toNat < 2 ^ 64)
  refine ⟨_, (obeys.deposit ledger user depositAmount _ distinct (by rw [userStart]; rfl)
    (by rw [userStart]; rfl)).mpr ⟨⟨covers, room⟩, rfl⟩, ?_, ?_⟩
  · rw [transferred_source _ distinct, userStart]
    rfl
  · rw [transferred_destination, vaultStart]
    exact UInt64.zero_add depositAmount

theorem withdraw_passes
    (vaultStart : ledger (vaultAddress find (framework.spec ids).programId user) =
      vaultAccount (framework.spec ids).programId withdrawVaultLamports) :
    ∃ after, calleeOf program ledger (instructionOf find (framework.spec ids)
        ⟨user, true, .withdraw withdrawAmount⟩) = .ok after ∧
      (after user).lamports = userLamports + withdrawAmount ∧
      (after (vaultAddress find (framework.spec ids).programId user)).lamports =
        withdrawVaultLamports - withdrawAmount := by
  have covers : withdrawAmount.toNat ≤
      ledger.balances (vaultAddress find (framework.spec ids).programId user) := by
    rw [Ledger.balances, vaultStart]
    exact (by decide : withdrawAmount.toNat ≤ withdrawVaultLamports.toNat)
  have room : ledger.balances user + withdrawAmount.toNat < 2 ^ 64 := by
    rw [Ledger.balances, userStart]
    decide
  refine ⟨_, (obeys.withdraw ledger user withdrawAmount _ distinct (by rw [vaultStart]; rfl)).mpr
    ⟨⟨covers, room⟩, rfl⟩, ?_, ?_⟩
  · rw [transferred_destination, userStart]
    rfl
  · rw [transferred_source _ distinct.symm, vaultStart]
    rfl

theorem counterAccess_passes (mollusk : Mollusk)
    (vaultStart : ledger (vaultAddress find (framework.spec ids).programId user) =
      counterVaultAccount (framework.spec ids) (framework.spec ids).programId user) :
    ∃ after, calleeOf program ledger (instructionOf find (framework.spec ids)
        ⟨user, true, .counterAccess⟩) = .ok after ∧
      counterFor mollusk.showAddress (framework.spec ids)
          [(vaultAddress find (framework.spec ids).programId user,
            after (vaultAddress find (framework.spec ids).programId user))]
          (vaultAddress find (framework.spec ids).programId user) =
        .ok (counterInitialValue + 1) ∧
      (after user).lamports = userLamports ∧
      (after (vaultAddress find (framework.spec ids).programId user)).lamports =
        withdrawVaultLamports := by
  have carries : counterOf framework.header user
      (ledger (vaultAddress find (framework.spec ids).programId user)).data = some 7 := by
    rw [vaultStart]
    exact counterOf_fixture _
  have counted := VaultBank.counterOf_countedData carries (by decide)
  refine ⟨_, (obeys.counterAccess ledger user _ (by rw [vaultStart]; rfl)).mpr
    ⟨⟨7, carries, by decide⟩, rfl⟩, ?_, ?_, ?_⟩
  · apply counterFor_carried
    rw [data_setData]
    exact counted
  · rw [setData_other _ distinct, userStart]
    rfl
  · rw [Ledger.setData, Function.update_self, vaultStart]
    rfl

end Obeying

theorem passes_of_obeys {program : Address → List AccountView → List UInt8 → Program Unit}
    (obeys : Obeys find (framework.spec ids) framework.header program)
    (distinct : user ≠ vaultAddress find (framework.spec ids).programId user) :
    Passes find mollusk program (framework.spec ids) user where
  deposit := by
    have start : ledgerOf (depositFixture find mollusk (framework.spec ids) user).2 user =
          userAccount ∧
        ledgerOf (depositFixture find mollusk (framework.spec ids) user).2
          (vaultAddress find (framework.spec ids).programId user) =
            vaultAccount (framework.spec ids).programId 0 := by
      simp [ledgerOf, depositFixture, distinct]
    exact deposit_passes obeys distinct start.1 start.2
  authorize := by
    obtain ⟨userStart, vaultStart⟩ := ledgerOf_pair distinct userAccount
      (vaultAccount (framework.spec ids).programId withdrawVaultLamports)
    refine ⟨_, (obeys.authorize _ user _).mpr rfl, ?_, ?_⟩
    · exact congrArg Account.lamports userStart
    · exact congrArg Account.lamports vaultStart
  missingSignature := by
    intro after
    exact obeys.unsigned _ ⟨user, false, .authorize⟩ after rfl
  counterAccess := by
    obtain ⟨userStart, vaultStart⟩ := ledgerOf_pair distinct userAccount
      (counterVaultAccount (framework.spec ids) (framework.spec ids).programId user)
    exact counterAccess_passes obeys distinct userStart mollusk vaultStart
  withdraw := by
    obtain ⟨userStart, vaultStart⟩ := ledgerOf_pair distinct userAccount
      (vaultAccount (framework.spec ids).programId withdrawVaultLamports)
    exact withdraw_passes obeys distinct userStart vaultStart
  unsignedWithdraw := by
    intro after
    exact obeys.unsigned _ ⟨user, false, .withdraw withdrawAmount⟩ after rfl

end Contract

theorem averaged_of_budget {mollusk : Mollusk} {fixture : Address → Fixture}
    {passes : Address → Prop} {budget : Nat} (small : budget < 2 ^ 61)
    (within : ∀ instruction accounts, (mollusk.computeUnits instruction accounts).toNat ≤ budget)
    (passed : ∀ user ∈ sharedUsers, passes user) :
    ∃ units, Averaged mollusk fixture passes units := by
  have count : (sharedUsers.map fun user => unitsOf mollusk (fixture user)).length = 8 := by
    rw [List.length_map]
    exact List.length_ofFn
  have each : ∀ units ∈ sharedUsers.map fun user => unitsOf mollusk (fixture user),
      units.toNat ≤ budget := by
    intro units member
    obtain ⟨user, _, rfl⟩ := List.mem_map.mp member
    exact within _ _
  obtain ⟨fits, mean, meanExact⟩ := Sweep.exists_mean (by rw [count]; omega) each
  rw [count] at meanExact
  exact ⟨mean, passed, fits, meanExact⟩

open VaultRuns in
/-- Both programs of this workspace get a metric, with every workload and the
unsigned withdraw rejected. -/
theorem vault_programs_reported (find : FindProgramAddress) (system : Callee)
    (documented : TransfersAsDocumented system) (generated : AnchorProgram.Generated)
    (lawful : generated.Lawful find) (ids : Framework → Address) (framework : Framework)
    (distinct : ∀ user ∈ sharedUsers, user ≠ vaultAddress find (ids framework) user)
    (mollusk : Mollusk) (budget : Nat) (small : budget < 2 ^ 61)
    (within : ∀ instruction accounts, (mollusk.computeUnits instruction accounts).toNat ≤ budget)
    (size : UInt64) :
    ∃ metric, runProgram find mollusk (framework.program find system generated) (.ok size)
        ⟨framework.spec ids, true⟩ = .ok metric ∧
      metric.authorizeCu.isSome = true ∧ metric.authorizeMissingSignatureCu.isSome = true ∧
      metric.counterAccessCu.isSome = true ∧ metric.unsignedWithdrawRejected = true := by
  have obeys := program_obeys lawful documented ids framework
  have passes : ∀ user ∈ sharedUsers, Passes find mollusk
      (framework.program find system generated) (framework.spec ids) user :=
    fun user member => passes_of_obeys obeys (distinct user member)
  obtain ⟨authorize, authorized⟩ : ∃ units, Averaged mollusk
      (authorizeFixture find (framework.spec ids) true) _ units :=
    averaged_of_budget small within fun user member => (passes user member).authorize
  obtain ⟨missing, refused⟩ : ∃ units, Averaged mollusk
      (authorizeFixture find (framework.spec ids) false) _ units :=
    averaged_of_budget small within fun user member => (passes user member).missingSignature
  obtain ⟨counter, counted⟩ : ∃ units, Averaged mollusk
      (counterAccessFixture find (framework.spec ids)) _ units :=
    averaged_of_budget small within fun user member => (passes user member).counterAccess
  obtain ⟨deposit, deposited⟩ : ∃ units, Averaged mollusk
      (depositFixture find mollusk (framework.spec ids)) _ units :=
    averaged_of_budget small within fun user member => (passes user member).deposit
  obtain ⟨withdraw, withdrew⟩ : ∃ units, Averaged mollusk
      (withdrawFixture find (framework.spec ids) true) _ units :=
    averaged_of_budget small within fun user member => (passes user member).withdraw
  have rejected := (passes _ sharedUser_listed).unsignedWithdraw
  refine ⟨⟨(framework.spec ids).framework, (framework.spec ids).programId, some authorize,
    some missing, some counter, deposit, withdraw, none, none, 0, 0, size, true⟩,
    runProgram_of_reports distinct ?_, rfl, rfl, rfl, rfl⟩
  exact ⟨rfl, rfl, ⟨authorize, rfl, authorized⟩, ⟨missing, rfl, refused⟩, ⟨counter, rfl, counted⟩,
    deposited, withdrew, iff_of_true rfl rejected, rfl, rfl, rfl, rfl, rfl⟩

theorem vault_programs_reported_anchor :
    ∃ metric, runProgram sampleDerivation RouteRun.plainMollusk
        (VaultRuns.Framework.anchor.program sampleDerivation Accounting.systemTransfer
          (AnchorProgram.checkedAnchor sampleDerivation)) (.ok 4096)
        ⟨VaultRuns.Framework.anchor.spec VaultRuns.sampleIds, true⟩ = .ok metric ∧
      metric.authorizeCu.isSome = true ∧ metric.authorizeMissingSignatureCu.isSome = true ∧
      metric.counterAccessCu.isSome = true ∧ metric.unsignedWithdrawRejected = true :=
  vault_programs_reported sampleDerivation Accounting.systemTransfer
    VaultRuns.systemTransfer_documented (AnchorProgram.checkedAnchor sampleDerivation)
    (AnchorProgram.checkedAnchor_lawful sampleDerivation) VaultRuns.sampleIds .anchor
    (sharedUsers_apart _) RouteRun.plainMollusk 1400000 (by decide)
    (fun _ _ => (by decide : (5000 : UInt64).toNat ≤ 1400000)) 4096

end HopperBench.VaultRunner
