import HopperBench.LazyDispatch.DispatchAgreement
import HopperBench.Library.DecimalText
import HopperBench.Library.Grouping
import HopperBench.Library.Sweep
import HopperBench.Solana.Harness

/-!
# The dispatch runner

Every instruction of the vault runs once against each build, on one fixture of
eight accounts.  The runner accepts a run that succeeds, moves no lamports and
raises the counter for `counter` only.
-/

set_option autoImplicit false

namespace HopperBench.DispatchBench

open StoppingRun LittleEndian HopperBench.Solana HopperBench.LazyDispatchVault
  HopperBench.DispatchAgreement HopperBench.Harness
open RouteRun (Mollusk RowFailure lamportsFor)
open RouterBench (ledgerOf)

def programId : Address := fun _ => 0x1d

def systemProgramId : Address := fun _ => 0

def userAddress : Address := fun _ => 0x11

def vaultAddress : Address := fun _ => 0x22

def fillerAddresses : List Address :=
  [fun _ => 0x41, fun _ => 0x42, fun _ => 0x43, fun _ => 0x44, fun _ => 0x45]

def userLamports : UInt64 := 10000000000

def vaultLamports : UInt64 := 1000000000

def fillerLamports : UInt64 := 1000000

def vaultDataLen : Nat := 8

def counterInitialValue : UInt64 := 7

/-- Discriminator, name, and how many of the eight accounts are touched. -/
def cases : List (UInt8 × String × String) :=
  [(0, "ping", "0/8"), (1, "get_balance", "1/8"), (2, "authorize", "2/8"), (3, "counter", "2/8"),
    (4, "deposit", "3/8"), (5, "withdraw", "2/8"), (6, "sweep", "8/8"), (7, "flush", "8/8")]

structure Row where
  disc : UInt8
  name : String
  touched : String
  eagerCu : UInt64
  lazyCu : UInt64
deriving DecidableEq

/-! ## One run -/

def vaultAccount : Account :=
  ⟨vaultLamports, programId,
    copyFromSlice 0 (List.ofFn (u64Bytes counterInitialValue)) (List.replicate vaultDataLen 0)⟩

def accountMetas : List InstructionAccount :=
  ⟨userAddress, true, true⟩ :: ⟨vaultAddress, true, false⟩ :: ⟨systemProgramId, false, false⟩ ::
    fillerAddresses.map fun filler => ⟨filler, false, false⟩

section Runner

variable (mollusk : Mollusk) (program : Address → List AccountView → List UInt8 → Program Unit)

def dispatchFixture (disc : UInt8) : Fixture :=
  (⟨programId, accountMetas, [disc]⟩,
    (userAddress, ⟨userLamports, systemProgramId, []⟩) :: (vaultAddress, vaultAccount) ::
      (systemProgramId, mollusk.loaderAccount systemProgramId) ::
        fillerAddresses.map fun filler => (filler, ⟨fillerLamports, systemProgramId, []⟩))

def counterFor (accounts : List (Address × Account)) (key : Address) : Except RowFailure UInt64 :=
  match accounts.find? fun entry => entry.1 = key with
  | none => rowFailure ("missing resulting account " ++ mollusk.showAddress key)
  | some entry =>
      if entry.2.data.length < 8 then
        rowFailure ("resulting account " ++ mollusk.showAddress key ++
          " data too small for counter")
      else
        .ok (u64OfBytes (entry.2.data.take 8))

/-- `"{variant} `{name}` (disc {disc}) "` -/
def runLabel (variant name : String) (disc : UInt8) : String :=
  variant ++ " `" ++ name ++ "` (disc " ++ toString disc ++ ") "

def expectedCounter (disc : UInt8) : UInt64 :=
  if disc = 3 then counterInitialValue + 1 else counterInitialValue

def runCase (variant : String) (disc : UInt8) (name : String) : Except RowFailure UInt64 := do
  let fixture := dispatchFixture mollusk disc
  let result := mollusk.processInstruction program fixture.1 fixture.2
  match result.programResult with
  | .error _ =>
      rowFailure (runLabel variant name disc ++ "failed: " ++
        mollusk.showResult result.programResult)
  | .ok _ =>
      let userAfter ← lamportsFor mollusk result.resultingAccounts userAddress
      let vaultAfter ← lamportsFor mollusk result.resultingAccounts vaultAddress
      if userAfter ≠ userLamports ∨ vaultAfter ≠ vaultLamports then
        rowFailure (runLabel variant name disc ++ "mutated balances unexpectedly: user " ++
          toString userAfter ++ ", vault " ++ toString vaultAfter)
      else
        let counterAfter ← counterFor mollusk result.resultingAccounts vaultAddress
        if counterAfter ≠ expectedCounter disc then
          rowFailure (runLabel variant name disc ++ "counter mismatch: expected " ++
            toString (expectedCounter disc) ++ ", got " ++ toString counterAfter)
        else
          .ok result.computeUnitsConsumed

end Runner

section Table

variable (eagerMollusk lazyMollusk : Mollusk)

/-- One round of the loop of `run`.  Each build has a harness of its own. -/
def benchRow (eager lazy : Address → List AccountView → List UInt8 → Program Unit)
    (listed : UInt8 × String × String) : Except RowFailure Row := do
  let (disc, name, touched) := listed
  let eagerCu ← runCase eagerMollusk eager "eager" disc name
  let lazyCu ← runCase lazyMollusk lazy "lazy" disc name
  .ok ⟨disc, name, touched, eagerCu, lazyCu⟩

def benchRows (eager lazy : Address → List AccountView → List UInt8 → Program Unit) :
    Except RowFailure (List Row) := cases.mapM (benchRow eagerMollusk lazyMollusk eager lazy)

def countedRow (listed : UInt8 × String × String) : Row :=
  ⟨listed.1, listed.2.1, listed.2.2, unitsOf eagerMollusk (dispatchFixture eagerMollusk listed.1),
    unitsOf lazyMollusk (dispatchFixture lazyMollusk listed.1)⟩

end Table

/-! ## What a run has checked -/

/-- The run of an instruction leaves the balances, and the counter as its
discriminator says. -/
def CasePasses (mollusk : Mollusk)
    (program : Address → List AccountView → List UInt8 → Program Unit) (disc : UInt8) : Prop :=
  ∃ after, answerTo program (dispatchFixture mollusk disc) = .ok after ∧
    (after userAddress).lamports = userLamports ∧ (after vaultAddress).lamports = vaultLamports ∧
    8 ≤ (after vaultAddress).data.length ∧
    u64OfBytes ((after vaultAddress).data.take 8) = expectedCounter disc

section Checks

variable {mollusk : Mollusk} {program : Address → List AccountView → List UInt8 → Program Unit}
  {disc : UInt8}

theorem counterFor_reported {final : Ledger} {word : UInt64} :
    counterFor mollusk ((dispatchFixture mollusk disc).2.map fun entry =>
        (entry.1, final entry.1)) vaultAddress = .ok word ↔
      8 ≤ (final vaultAddress).data.length ∧
        u64OfBytes ((final vaultAddress).data.take 8) = word := by
  have other : userAddress ≠ vaultAddress := by decide
  have found : ((dispatchFixture mollusk disc).2.map fun entry =>
      (entry.1, final entry.1)).find? (fun entry => entry.1 = vaultAddress) =
        some (vaultAddress, final vaultAddress) := by
    simp [dispatchFixture, other]
  rw [counterFor, found]
  simp only [check_eq_ok, not_lt, Except.ok.injEq]

theorem runCase_eq_ok {variant name : String} {units : UInt64} :
    runCase mollusk program variant disc name = .ok units ↔
      CasePasses mollusk program disc ∧ unitsOf mollusk (dispatchFixture mollusk disc) = units := by
  obtain ⟨userRead, vaultRead⟩ := lamportsFor_reported mollusk program
    (dispatchFixture mollusk disc) rfl
  have result : (mollusk.processInstruction program (dispatchFixture mollusk disc).1
    (dispatchFixture mollusk disc).2).programResult = _ := programResult_eq _
  have resulting : (mollusk.processInstruction program (dispatchFixture mollusk disc).1
    (dispatchFixture mollusk disc).2).resultingAccounts = _ := resultingAccounts_eq _
  unfold runCase CasePasses
  cases answer : answerTo program (dispatchFixture mollusk disc) with
  | error abort =>
      rw [answer] at result
      simp [result, rowFailure]
  | ok after =>
      rw [reported_of_ok answer] at userRead vaultRead resulting
      rw [answer] at result
      rw [resulting] at userRead vaultRead
      simp only [result, resulting, userRead, vaultRead, Sweep.bind_eq_ok, check_eq_ok,
        counterFor_reported, Except.ok.injEq, exists_eq_left', not_or, not_not, ne_eq]
      constructor
      · intro given
        obtain ⟨⟨userKept, vaultKept⟩, _, ⟨long, read⟩, counted, units⟩ := given
        exact ⟨⟨userKept, vaultKept, long, read.trans counted⟩, units⟩
      · intro given
        obtain ⟨⟨userKept, vaultKept, long, counted⟩, units⟩ := given
        exact ⟨⟨userKept, vaultKept⟩, _, ⟨long, rfl⟩, counted, units⟩

theorem runCase_of_error {variant name : String} {abort : Abort}
    (answer : answerTo program (dispatchFixture mollusk disc) = .error abort) :
    runCase mollusk program variant disc name =
      rowFailure (runLabel variant name disc ++ "failed: " ++
        mollusk.showResult (.error abort)) := by
  have result : (mollusk.processInstruction program (dispatchFixture mollusk disc).1
    (dispatchFixture mollusk disc).2).programResult = _ := programResult_eq _
  rw [answer] at result
  simp only [runCase, result]

end Checks

theorem benchRow_eq_ok {eagerMollusk lazyMollusk : Mollusk}
    {eager lazy : Address → List AccountView → List UInt8 → Program Unit}
    (listed : UInt8 × String × String) (row : Row) :
    benchRow eagerMollusk lazyMollusk eager lazy listed = .ok row ↔
      (CasePasses eagerMollusk eager listed.1 ∧ CasePasses lazyMollusk lazy listed.1) ∧
        countedRow eagerMollusk lazyMollusk listed = row := by
  simp only [benchRow, Sweep.bind_eq_ok, runCase_eq_ok, Except.ok.injEq]
  constructor
  · intro given
    obtain ⟨_, ⟨first, rfl⟩, _, ⟨second, rfl⟩, same⟩ := given
    exact ⟨⟨first, second⟩, same⟩
  · intro given
    obtain ⟨⟨first, second⟩, same⟩ := given
    exact ⟨_, ⟨first, rfl⟩, _, ⟨second, rfl⟩, same⟩

theorem benchRows_eq_ok {eagerMollusk lazyMollusk : Mollusk}
    {eager lazy : Address → List AccountView → List UInt8 → Program Unit} {rows : List Row} :
    benchRows eagerMollusk lazyMollusk eager lazy = .ok rows ↔
      (∀ listed ∈ cases,
        CasePasses eagerMollusk eager listed.1 ∧ CasePasses lazyMollusk lazy listed.1) ∧
      rows = cases.map (countedRow eagerMollusk lazyMollusk) := by
  rw [benchRows, Sweep.mapM_eq_ok]
  exact Sweep.measured_iff fun listed _ row => benchRow_eq_ok listed row

/-! ## The two builds -/

/-- The borrow is given out for a writable account of at least 8 bytes. -/
def Grants (segmentMut : SegmentMut) : Prop :=
  ∀ (view : AccountView) (account : Account), view.isWritable = true →
    8 ≤ account.data.length → segmentMut view account = .ok ()

def eagerBuild (segmentMut : SegmentMut) :
    Address → List AccountView → List UInt8 → Program Unit := processEager segmentMut

def lazyBuild (lz : LazyContext) (segmentMut : SegmentMut) :
    Address → List AccountView → List UInt8 → Program Unit := fun _ accounts data =>
  processLazy lz segmentMut (lz.ofInstruction accounts data)

section Builds

variable {mollusk : Mollusk} {lz : LazyContext} {segmentMut : SegmentMut} {disc : UInt8}

def views : List AccountView := accountMetas.map InstructionAccount.view

theorem lazy_answers (lawful : lz.Lawful) :
    answerTo (lazyBuild lz segmentMut) (dispatchFixture mollusk disc) =
      answerTo (eagerBuild segmentMut) (dispatchFixture mollusk disc) := by
  simp only [answerTo, calleeOf, lazyBuild, eagerBuild,
    processEager_run_eq lawful segmentMut (dispatchFixture mollusk disc).1.programId]

theorem counter_run (grants : Grants segmentMut) (ledger : Ledger)
    (start : ledger vaultAddress = vaultAccount) :
    (processEager segmentMut programId views [3]).run (Machine.start ledger) =
      (.ok (), ⟨ledger.setData vaultAddress (List.ofFn (u64Bytes 8)), [],
        [⟨vaultAddress, false, true⟩]⟩) := by
  have granted : segmentMut ⟨vaultAddress, false, true⟩ vaultAccount = .ok () :=
    grants _ _ rfl (by decide)
  -- past the signature, the account is viewed and the counter raised
  have body : (processEager segmentMut programId views [3]).run (Machine.start ledger) =
      (Exec.lift (propagate (segmentMut ⟨vaultAddress, false, true⟩ (ledger vaultAddress))) >>=
        fun _ => orFail (CheckedWord.checkedAdd
            (u64OfBytes ((ledger vaultAddress).data.take 8)) 1) .arithmeticOverflow >>=
          fun next => setData ⟨vaultAddress, false, true⟩
            (List.ofFn (u64Bytes next) ++ (ledger vaultAddress).data.drop 8)).run
        (Machine.start ledger) := rfl
  rw [body, start, granted]
  rfl

theorem quiet_run (ledger : Ledger) (listed : disc < 8) (quiet : disc ≠ 3) :
    (processEager segmentMut programId views [disc]).run (Machine.start ledger) =
      (.ok (), Machine.start ledger) := by
  have few : disc = 0 ∨ disc = 1 ∨ disc = 2 ∨ disc = 4 ∨ disc = 5 ∨ disc = 6 ∨ disc = 7 := by
    have listedCases : ∀ byte : UInt8, byte < 8 → byte ≠ 3 → byte = 0 ∨ byte = 1 ∨ byte = 2 ∨
        byte = 4 ∨ byte = 5 ∨ byte = 6 ∨ byte = 7 := by decide +kernel
    exact listedCases disc listed quiet
  rcases few with rfl | rfl | rfl | rfl | rfl | rfl | rfl
  · rfl
  · rfl
  · rfl
  · rfl
  · rfl
  · rfl
  · rfl

theorem unknown_run (m : Machine) (unknown : ¬disc < 8) :
    (processEager segmentMut programId views [disc]).run m =
      (.error (.error .invalidInstructionData), m) := by
  unfold processEager
  simp only
  split
  case h_9 => rfl
  all_goals exact absurd (by decide) unknown

theorem fixture_start (mollusk : Mollusk) (disc : UInt8) :
    ledgerOf (dispatchFixture mollusk disc).2 userAddress =
        ⟨userLamports, systemProgramId, []⟩ ∧
      ledgerOf (dispatchFixture mollusk disc).2 vaultAddress = vaultAccount := by
  have other : userAddress ≠ vaultAddress := by decide
  simp [ledgerOf, dispatchFixture, other]

theorem unknown_answers (unknown : ¬disc < 8) :
    answerTo (eagerBuild segmentMut) (dispatchFixture mollusk disc) =
      .error (.error .invalidInstructionData) := by
  have refused : (eagerBuild segmentMut (dispatchFixture mollusk disc).1.programId
      ((dispatchFixture mollusk disc).1.accounts.map InstructionAccount.view)
      (dispatchFixture mollusk disc).1.data).run
        (Machine.start (ledgerOf (dispatchFixture mollusk disc).2)) =
      (.error (.error .invalidInstructionData), _) := unknown_run _ unknown
  simp only [answerTo, calleeOf, refused]

theorem passes_iff_listed (grants : Grants segmentMut) :
    CasePasses mollusk (eagerBuild segmentMut) disc ↔ disc < 8 := by
  obtain ⟨userStart, vaultStart⟩ := fixture_start mollusk disc
  constructor
  · intro passes
    obtain ⟨after, answer, _⟩ := passes
    by_contra unknown
    rw [unknown_answers unknown] at answer
    cases answer
  · intro listed
    by_cases counts : disc = 3
    · subst counts
      have raised : u64OfBytes (List.take 8 (List.ofFn (u64Bytes 8))) = 8 := by decide
      refine ⟨(ledgerOf (dispatchFixture mollusk 3).2).setData vaultAddress
        (List.ofFn (u64Bytes 8)), calleeOf_eq_ok.mpr ⟨_, counter_run grants _ vaultStart, rfl⟩,
        ?_, ?_, ?_, ?_⟩
      · rw [setData_other _ (by decide), userStart]
      · simp only [Ledger.setData, Function.update_self, vaultStart]
        rfl
      · rw [data_setData]
        decide
      · rw [data_setData, raised]
        rfl
    · have carried : u64OfBytes (vaultAccount.data.take 8) = counterInitialValue := by decide
      refine ⟨_, calleeOf_eq_ok.mpr ⟨_, quiet_run _ listed counts, rfl⟩, ?_, ?_, ?_, ?_⟩
      · exact congrArg Account.lamports userStart
      · exact congrArg Account.lamports vaultStart
      · exact (congrArg (fun vault => 8 ≤ vault.data.length) vaultStart).mpr (by decide)
      · rw [expectedCounter, if_neg counts, ← carried]
        exact congrArg (fun vault => u64OfBytes (vault.data.take 8)) vaultStart

theorem lazy_passes (lawful : lz.Lawful) :
    CasePasses mollusk (lazyBuild lz segmentMut) disc ↔
      CasePasses mollusk (eagerBuild segmentMut) disc := by
  rw [CasePasses, CasePasses, lazy_answers lawful]

theorem runCase_eq {program : Address → List AccountView → List UInt8 → Program Unit}
    (grants : Grants segmentMut)
    (alike : answerTo program (dispatchFixture mollusk disc) =
      answerTo (eagerBuild segmentMut) (dispatchFixture mollusk disc)) (variant name : String) :
    runCase mollusk program variant disc name =
      if disc < 8 then .ok (unitsOf mollusk (dispatchFixture mollusk disc))
      else rowFailure (runLabel variant name disc ++ "failed: " ++
        mollusk.showResult (.error (.error .invalidInstructionData))) := by
  by_cases listed : disc < 8
  · rw [if_pos listed, runCase_eq_ok, CasePasses, alike]
    exact ⟨(passes_iff_listed grants).mpr listed, rfl⟩
  · rw [if_neg listed]
    exact runCase_of_error (alike.trans (unknown_answers listed))

theorem cases_listed : ∀ listed ∈ cases, listed.1 < 8 := by
  decide

end Builds

/-- The runner accepts either build on exactly the instructions the vault has, and
so its table always has all eight rows. -/
theorem dispatch_verdict {lz : LazyContext} (lawful : lz.Lawful) {segmentMut : SegmentMut}
    (grants : Grants segmentMut) (eagerMollusk lazyMollusk : Mollusk) :
    (∀ variant disc name,
      runCase eagerMollusk (eagerBuild segmentMut) variant disc name =
        (if disc < 8 then .ok (unitsOf eagerMollusk (dispatchFixture eagerMollusk disc))
          else rowFailure (runLabel variant name disc ++ "failed: " ++
            eagerMollusk.showResult (.error (.error .invalidInstructionData)))) ∧
      runCase lazyMollusk (lazyBuild lz segmentMut) variant disc name =
        (if disc < 8 then .ok (unitsOf lazyMollusk (dispatchFixture lazyMollusk disc))
          else rowFailure (runLabel variant name disc ++ "failed: " ++
            lazyMollusk.showResult (.error (.error .invalidInstructionData))))) ∧
    benchRows eagerMollusk lazyMollusk (eagerBuild segmentMut) (lazyBuild lz segmentMut) =
      .ok (cases.map (countedRow eagerMollusk lazyMollusk)) := by
  constructor
  · intro variant disc name
    exact ⟨runCase_eq grants rfl variant name, runCase_eq grants (lazy_answers lawful) variant name⟩
  · refine benchRows_eq_ok.mpr ⟨?_, rfl⟩
    intro listed member
    have known := cases_listed listed member
    exact ⟨(passes_iff_listed grants).mpr known,
      (lazy_passes lawful).mpr ((passes_iff_listed grants).mpr known)⟩

theorem writableSegment_grants : Grants writableSegment := by
  intro view account writable long
  rw [writableSegment, if_pos writable, if_pos long]

theorem dispatch_verdict_listContext :
    benchRows RouteRun.plainMollusk RouteRun.plainMollusk (eagerBuild writableSegment)
        (lazyBuild listContext writableSegment) =
      .ok (cases.map fun listed => ⟨listed.1, listed.2.1, listed.2.2, 5000, 5000⟩) :=
  (dispatch_verdict listContext_lawful writableSegment_grants RouteRun.plainMollusk
    RouteRun.plainMollusk).2

def fmtU64 (value : UInt64) : String :=
  String.ofList (Grouping.separate 3 ',' (toString value).toList)

theorem digits_eq (value : UInt64) : (toString value).toList = Nat.toDigits 10 value.toNat :=
  Nat.toList_repr

theorem comma_notMem (value : UInt64) : ',' ∉ (toString value).toList := by
  intro member
  rw [digits_eq] at member
  exact absurd (Nat.isDigit_of_mem_toDigits (by decide) (by decide) member) (by decide)

/-- Every size is printed as its decimal digits, one to three of them and then
groups of three behind a comma each, and read back once the commas are gone. -/
theorem fmt_u64_exact (value : UInt64) :
    ∃ (head : List Char) (groups : List (List Char)), 0 < head.length ∧ head.length ≤ 3 ∧
      (∀ group ∈ groups, group.length = 3) ∧
      Nat.toDigits 10 value.toNat = head ++ groups.flatten ∧
      (fmtU64 value).toList = head ++ groups.flatMap (',' :: ·) ∧
      DecimalText.parse (2 ^ 64) ((fmtU64 value).toList.filter (· ≠ ',')) = .ok value.toNat := by
  have nonempty : (toString value).toList ≠ [] := by
    rw [digits_eq]
    exact Nat.toDigits_ne_nil
  have printed : (fmtU64 value).toList = Grouping.separate 3 ',' (toString value).toList :=
    String.toList_ofList
  obtain ⟨head, groups, some, few, written⟩ :=
    Grouping.separate_groups ',' (by decide : 0 < 3) nonempty
  refine ⟨head, groups, some, few, written.full, ?_, ?_, ?_⟩
  · rw [← digits_eq]
    exact written.elements
  · rw [printed]
    exact written.written
  · rw [printed, written.filter (comma_notMem value), digits_eq]
    exact DecimalText.parse_toDigits value.toNat_lt

example : fmtU64 1234567 = "1,234,567" := by decide +kernel

end HopperBench.DispatchBench
