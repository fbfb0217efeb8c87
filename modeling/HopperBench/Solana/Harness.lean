import HopperBench.Library.Baseline
import HopperBench.Router.RouteRun

/-!
# What a runner learns from the harness

A fixture is an instruction with the accounts it runs on.  The harness reports
the program's answer and the accounts that this answer leaves, and a runner
checks one after the other.
-/

set_option autoImplicit false

namespace HopperBench.Harness

open HopperBench.Solana
open RouteRun (Mollusk RowFailure lamportsFor)
open RouterBench (ledgerOf)

abbrev Fixture := InstructionView × List (Address × Account)

/-- `data[offset..offset + bytes.len()].copy_from_slice(bytes)` -/
def copyFromSlice (offset : Nat) (bytes data : List UInt8) : List UInt8 :=
  data.take offset ++ bytes ++ data.drop (offset + bytes.length)

/-- The program's answer to the instruction of a fixture. -/
def answerTo (program : Address → List AccountView → List UInt8 → Program Unit)
    (fixture : Fixture) : Except Abort Ledger :=
  calleeOf program (ledgerOf fixture.2) fixture.1

/-! ## Checks -/

def rowFailure {A : Type} (message : String) : Except RowFailure A := .error (.failed message)

def orFailure {A : Type} : Except String A → Except RowFailure A
  | .ok a => .ok a
  | .error message => rowFailure message

section Reports

variable {mollusk : Mollusk} {program : Address → List AccountView → List UInt8 → Program Unit}

def reportedLedger (program : Address → List AccountView → List UInt8 → Program Unit)
    (fixture : Fixture) : Ledger :=
  match answerTo program fixture with
  | .ok after => after
  | .error _ => ledgerOf fixture.2

theorem programResult_eq (fixture : Fixture) :
    (mollusk.processInstruction program fixture.1 fixture.2).programResult =
      match answerTo program fixture with
      | .ok _ => .ok ()
      | .error abort => .error abort := by
  simp only [RouteRun.Mollusk.processInstruction, answerTo, calleeOf]
  rcases StoppingRun.Exec.run _ _ with ⟨_ | u, m⟩ <;> rfl

theorem resultingAccounts_eq (fixture : Fixture) :
    (mollusk.processInstruction program fixture.1 fixture.2).resultingAccounts =
      fixture.2.map fun entry => (entry.1, reportedLedger program fixture entry.1) := by
  have committed : submit (program fixture.1.programId) (ledgerOf fixture.2)
      (fixture.1.accounts.map InstructionAccount.view, fixture.1.data) =
        reportedLedger program fixture := by
    simp only [submit, reportedLedger, answerTo, calleeOf]
    rcases StoppingRun.Exec.run _ _ with ⟨_ | u, m⟩ <;> rfl
  simp only [RouteRun.Mollusk.processInstruction, committed]

/-- What the runner reads of the first two accounts. -/
theorem lamportsFor_reported (mollusk : Mollusk)
    (program : Address → List AccountView → List UInt8 → Program Unit) (fixture : Fixture)
    {a b : Address} {x y : Account} {rest : List (Address × Account)}
    (listed : fixture.2 = (a, x) :: (b, y) :: rest) :
    let resulting :=
      (mollusk.processInstruction program fixture.1 fixture.2).resultingAccounts
    lamportsFor mollusk resulting a = .ok (reportedLedger program fixture a).lamports ∧
      lamportsFor mollusk resulting b = .ok (reportedLedger program fixture b).lamports := by
  intro resulting
  have exact : resulting = fixture.2.map fun entry =>
      (entry.1, reportedLedger program fixture entry.1) := resultingAccounts_eq fixture
  rw [exact]
  exact ⟨RouteRun.lamportsFor_resulting (by simp [listed]),
    RouteRun.lamportsFor_resulting (by simp [listed])⟩

theorem reported_of_error {fixture : Fixture} {abort : Abort}
    (answer : answerTo program fixture = .error abort) :
    reportedLedger program fixture = ledgerOf fixture.2 := by
  rw [reportedLedger, answer]

theorem reported_of_ok {fixture : Fixture} {after : Ledger}
    (answer : answerTo program fixture = .ok after) :
    reportedLedger program fixture = after := by
  rw [reportedLedger, answer]

theorem check_eq_ok {A : Type} {c : Prop} [Decidable c] {message : String}
    {x : Except RowFailure A} {a : A} :
    (if c then rowFailure message else x) = .ok a ↔ ¬c ∧ x = .ok a := by
  by_cases holds : c
  · simp [holds, rowFailure]
  · simp [holds]

theorem orFailure_eq_ok {A : Type} {x : Except String A} {a : A} :
    orFailure x = .ok a ↔ x = .ok a := by
  cases x <;> simp [orFailure, rowFailure]

def unitsOf (mollusk : Mollusk) (fixture : Fixture) : UInt64 :=
  mollusk.computeUnits fixture.1 fixture.2

end Reports

/-! ## The machine a runner runs on -/

/-- A harness into which a program is loaded. -/
structure Loaded where
  mollusk : Mollusk
  program : Address → List AccountView → List UInt8 → Program Unit

/-- What a runner asks of its machine: paths, files, and the harness that loads a
binary beside others. -/
structure Host where
  Path : Type
  join : Path → String → Path
  display : Path → String
  isFile : Path → Bool
  createDirAll : Path → Except String Unit
  stat : Path → Except String UInt64
  load : Path → List Path → Except RowFailure Loaded

section Files

variable (host : Host)

def Host.ensureFile (path : host.Path) : Except String Unit :=
  if host.isFile path then .ok ()
  else .error ("missing benchmark artifact " ++ host.display path)

def Host.createOutDir (path : host.Path) : Except RowFailure Unit :=
  match host.createDirAll path with
  | .ok _ => .ok ()
  | .error err =>
      rowFailure ("failed to create output directory " ++ host.display path ++ ": " ++ err)

def Host.binarySize (path : host.Path) : Except RowFailure UInt64 :=
  match host.stat path with
  | .ok size => .ok size
  | .error err => rowFailure ("failed to stat " ++ host.display path ++ ": " ++ err)

/-- Whether `retain` finds the artifact of a framework. -/
def Host.present (path : host.Path) : Bool :=
  match host.ensureFile path with
  | .ok _ => true
  | .error _ => false

end Files

/-- `a as i64 - b as i64`, as a plain expression. -/
def plainDifference (a b : UInt64) : Except RowFailure Int64 :=
  match Baseline.difference a b with
  | some d => .ok d
  | none => .error .wrapped

theorem plainDifference_eq_ok {a b : UInt64} (aSmall : a.toNat < 2 ^ 63) (bSmall : b.toNat < 2 ^ 63)
    {d : Int64} : plainDifference a b = .ok d ↔ Baseline.Above a b d := by
  rw [← Baseline.difference_eq_some aSmall bSmall, plainDifference]
  cases Baseline.difference a b <;> simp

end HopperBench.Harness
