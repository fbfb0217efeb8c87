import Mathlib.Data.Fintype.Pi
import Mathlib.Algebra.Order.Ring.Nat
import HopperBench.Library.StoppingRun
import HopperBench.Library.Balances

/-!
# Accounts, views and cross-program calls

The part of the on-chain runtime that the programs of this workspace share.
A ledger maps every address to its account, so two views of one address read
and write one balance.  A program is a run over a `Machine`: the ledger, the
cross-program calls issued so far with what they answered, and the views the
program wrote through itself.  The callee of a cross-program call is a
parameter.
-/

set_option autoImplicit false

namespace HopperBench.Solana

open StoppingRun

abbrev Address := Fin 32 → UInt8

instance fintypeUInt8 : Fintype UInt8 :=
  Fintype.ofEquiv (Fin 256) ⟨UInt8.ofFin, UInt8.toFin, fun _ => rfl, fun _ => rfl⟩

structure Account where
  lamports : UInt64
  owner : Address
  data : List UInt8
deriving DecidableEq

abbrev Ledger := Address → Account

/-- One entry of an instruction's account list.  The flags belong to the entry;
lamports, owner and data are read from the ledger at its address. -/
structure AccountView where
  address : Address
  isSigner : Bool
  isWritable : Bool
deriving DecidableEq

/-- The variants of the program error type that this workspace returns. -/
inductive ProgramError where
  | invalidInstructionData
  | invalidAccountData
  | accountDataTooSmall
  | insufficientFunds
  | incorrectProgramId
  | missingRequiredSignature
  | notEnoughAccountKeys
  | invalidSeeds
  | invalidAccountOwner
  | arithmeticOverflow
  | immutable
  | custom (code : UInt32)
deriving DecidableEq

/-- Why a run ended without `Ok`: an error returned by the program, or one of
the faults Rust would not return as a value.  `wrapped` marks an unchecked
integer expression whose value leaves its type. -/
inductive Abort where
  | error (e : ProgramError)
  | indexOutOfRange
  | divisionByZero
  | wrapped
deriving DecidableEq

/-! ## Ledgers -/

def Ledger.balances (ledger : Ledger) : Address → Nat := fun a => (ledger a).lamports.toNat

def Ledger.total (ledger : Ledger) : Nat := Balances.total ledger.balances

def Ledger.setLamports (ledger : Ledger) (a : Address) (n : UInt64) : Ledger :=
  Function.update ledger a { ledger a with lamports := n }

def Ledger.setData (ledger : Ledger) (a : Address) (bytes : List UInt8) : Ledger :=
  Function.update ledger a { ledger a with data := bytes }

@[simp] theorem balances_setLamports (ledger : Ledger) (a : Address) (n : UInt64) :
    (ledger.setLamports a n).balances = Function.update ledger.balances a n.toNat := by
  funext b
  by_cases same : b = a
  · subst same
    simp [Ledger.balances, Ledger.setLamports]
  · simp [Ledger.balances, Ledger.setLamports, same]

@[simp] theorem balances_setData (ledger : Ledger) (a : Address) (bytes : List UInt8) :
    (ledger.setData a bytes).balances = ledger.balances := by
  funext b
  by_cases same : b = a
  · subst same
    simp [Ledger.balances, Ledger.setData]
  · simp [Ledger.balances, Ledger.setData, same]

@[simp] theorem data_setData (ledger : Ledger) (a : Address) (bytes : List UInt8) :
    (ledger.setData a bytes a).data = bytes := by
  simp [Ledger.setData]

@[simp] theorem owner_setData (ledger : Ledger) (a b : Address) (bytes : List UInt8) :
    (ledger.setData a bytes b).owner = (ledger b).owner := by
  by_cases same : b = a
  · subst same
    simp [Ledger.setData]
  · simp [Ledger.setData, same]

theorem setData_other (ledger : Ledger) {a b : Address} (other : b ≠ a) (bytes : List UInt8) :
    ledger.setData a bytes b = ledger b := Function.update_of_ne other _ _

theorem setLamports_other (ledger : Ledger) {a b : Address} (other : b ≠ a) (n : UInt64) :
    ledger.setLamports a n b = ledger b := Function.update_of_ne other _ _

@[simp] theorem owner_setLamports (ledger : Ledger) (a b : Address) (n : UInt64) :
    (ledger.setLamports a n b).owner = (ledger b).owner := by
  by_cases same : b = a
  · subst same
    simp [Ledger.setLamports]
  · simp [Ledger.setLamports, same]

@[simp] theorem data_setLamports (ledger : Ledger) (a b : Address) (n : UInt64) :
    (ledger.setLamports a n b).data = (ledger b).data := by
  by_cases same : b = a
  · subst same
    simp [Ledger.setLamports]
  · simp [Ledger.setLamports, same]

/-! ## Cross-program calls -/

structure InstructionAccount where
  address : Address
  isWritable : Bool
  isSigner : Bool
deriving DecidableEq

def InstructionAccount.writable (address : Address) : InstructionAccount :=
  ⟨address, true, false⟩

/-- The view the callee gets of an account passed to it. -/
def InstructionAccount.view (passed : InstructionAccount) : AccountView :=
  ⟨passed.address, passed.isSigner, passed.isWritable⟩

structure InstructionView where
  programId : Address
  accounts : List InstructionAccount
  data : List UInt8
deriving DecidableEq

/-- The callee of a cross-program call: it fails, or returns any ledger. -/
abbrev Callee := Ledger → InstructionView → Except Abort Ledger

structure CpiRecord where
  instruction : InstructionView
  before : Ledger
  outcome : Except Abort Ledger

structure Machine where
  ledger : Ledger
  cpis : List CpiRecord
  writes : List AccountView

def Machine.start (ledger : Ledger) : Machine := ⟨ledger, [], []⟩

abbrev Program (A : Type) := Exec Machine Abort A

/-- Issue a call.  A failing callee ends the caller with the same abort. -/
def invoke (callee : Callee) (instruction : InstructionView) : Program Unit := fun m =>
  let outcome := callee m.ledger instruction
  let record : CpiRecord := ⟨instruction, m.ledger, outcome⟩
  match outcome with
  | .ok ledger => (.ok (), { m with ledger := ledger, cpis := m.cpis ++ [record] })
  | .error abort => (.error abort, { m with cpis := m.cpis ++ [record] })

/-- A program as the callee of a call: it runs on the accounts passed to it, and
its writes are committed exactly when it returns `Ok`. -/
def calleeOf (program : Address → List AccountView → List UInt8 → Program Unit) : Callee :=
  fun ledger instruction =>
    match (program instruction.programId (instruction.accounts.map InstructionAccount.view)
        instruction.data).run (Machine.start ledger) with
    | (.ok _, m) => .ok m.ledger
    | (.error abort, _) => .error abort

/-- The ledger after the runtime ran a program on a transaction: a failed run is
rolled back. -/
def submit (program : List AccountView → List UInt8 → Program Unit) (ledger : Ledger)
    (transaction : List AccountView × List UInt8) : Ledger :=
  match (program transaction.1 transaction.2).run (Machine.start ledger) with
  | (.ok _, m) => m.ledger
  | (.error _, _) => ledger

def lamports (view : AccountView) : Program UInt64 :=
  Exec.gets fun m => (m.ledger view.address).lamports

def owner (view : AccountView) : Program Address :=
  Exec.gets fun m => (m.ledger view.address).owner

def setLamports (view : AccountView) (n : UInt64) : Program Unit :=
  Exec.modify fun m =>
    { m with ledger := m.ledger.setLamports view.address n, writes := m.writes ++ [view] }

def account (view : AccountView) : Program Account :=
  Exec.gets fun m => m.ledger view.address

def accountData (view : AccountView) : Program (List UInt8) :=
  Exec.gets fun m => (m.ledger view.address).data

def setData (view : AccountView) (bytes : List UInt8) : Program Unit :=
  Exec.modify fun m =>
    { m with ledger := m.ledger.setData view.address bytes, writes := m.writes ++ [view] }

/-- `return Err(e)` unless `c` holds. -/
def ensure (c : Prop) [Decidable c] (e : ProgramError) : Program Unit :=
  Exec.require c (.error e)

/-- `opt.ok_or(e)?` -/
def okOr {A : Type} (opt : Option A) (e : ProgramError) : Except Abort A :=
  match opt with
  | some a => .ok a
  | none => .error (.error e)

/-- `r?` -/
def propagate {A : Type} (r : Except ProgramError A) : Except Abort A := r.mapError .error

/-- `opt.ok_or(e)?` inside a program. -/
def orFail {A : Type} (opt : Option A) (e : ProgramError) : Program A := Exec.lift (okOr opt e)

theorem okOr_eq_ok {A : Type} {opt : Option A} {e : ProgramError} {a : A} :
    okOr opt e = .ok a ↔ opt = some a := by
  cases opt <;> simp [okOr]

theorem propagate_eq_ok {A : Type} {r : Except ProgramError A} {a : A} :
    propagate r = .ok a ↔ r = .ok a := by
  cases r <;> simp [propagate, Except.mapError]

theorem ensure_eq_ok {c : Prop} [Decidable c] {e : ProgramError} {m n : Machine} {u : Unit} :
    (ensure c e).run m = (.ok u, n) ↔ c ∧ m = n := Exec.require_eq_ok

theorem orFail_eq_ok {A : Type} {opt : Option A} {e : ProgramError} {m n : Machine} {a : A} :
    (orFail opt e).run m = (.ok a, n) ↔ opt = some a ∧ m = n := by
  rw [orFail, Exec.lift_eq_ok, okOr_eq_ok]

section Parts

variable {A B : Type} {k : A → Program B} {m n : Machine} {b : B}

theorem ensure_bind_eq_ok {c : Prop} [Decidable c] {e : ProgramError} {rest : Unit → Program B} :
    (ensure c e >>= rest).run m = (.ok b, n) ↔ c ∧ (rest ()).run m = (.ok b, n) :=
  Exec.require_bind_eq_ok

theorem run_ensure_bind {c : Prop} [Decidable c] {e : ProgramError} {rest : Unit → Program B}
    (holds : c) : (ensure c e >>= rest).run m = (rest ()).run m := Exec.run_require_bind holds

theorem run_ensure_bind_error {c : Prop} [Decidable c] {e : ProgramError}
    {rest : Unit → Program B} (fails : ¬c) :
    (ensure c e >>= rest).run m = (.error (.error e), m) := Exec.run_require_bind_error fails

theorem orFail_bind_eq_ok {opt : Option A} {e : ProgramError} :
    (orFail opt e >>= k).run m = (.ok b, n) ↔ ∃ a, opt = some a ∧ (k a).run m = (.ok b, n) := by
  rw [orFail, Exec.lift_bind_eq_ok]
  simp only [okOr_eq_ok]

theorem run_lamports_bind (view : AccountView) (rest : UInt64 → Program B) :
    (lamports view >>= rest).run m = (rest (m.ledger view.address).lamports).run m := rfl

theorem run_owner_bind (view : AccountView) (rest : Address → Program B) :
    (owner view >>= rest).run m = (rest (m.ledger view.address).owner).run m := rfl

theorem run_account_bind (view : AccountView) (rest : Account → Program B) :
    (account view >>= rest).run m = (rest (m.ledger view.address)).run m := rfl

theorem run_accountData_bind (view : AccountView) (rest : List UInt8 → Program B) :
    (accountData view >>= rest).run m = (rest (m.ledger view.address).data).run m := rfl

theorem run_setLamports_bind (view : AccountView) (amount : UInt64) (rest : Unit → Program B) :
    (setLamports view amount >>= rest).run m =
      (rest ()).run ⟨m.ledger.setLamports view.address amount, m.cpis, m.writes ++ [view]⟩ := rfl

end Parts

theorem lamports_eq_ok {view : AccountView} {m n : Machine} {amount : UInt64} :
    (lamports view).run m = (.ok amount, n) ↔
      amount = (m.ledger view.address).lamports ∧ m = n := by
  simp [lamports, eq_comm]

theorem owner_eq_ok {view : AccountView} {m n : Machine} {a : Address} :
    (owner view).run m = (.ok a, n) ↔ a = (m.ledger view.address).owner ∧ m = n := by
  simp [owner, eq_comm]

theorem reads_ensure (c : Prop) [Decidable c] (e : ProgramError) : (ensure c e).Reads :=
  Exec.reads_require _ _

theorem reads_orFail {A : Type} (opt : Option A) (e : ProgramError) : (orFail opt e).Reads :=
  Exec.reads_lift _

theorem reads_lamports (view : AccountView) : (lamports view).Reads := Exec.reads_gets _

theorem reads_owner (view : AccountView) : (owner view).Reads := Exec.reads_gets _

theorem reads_account (view : AccountView) : (account view).Reads := Exec.reads_gets _

theorem reads_accountData (view : AccountView) : (accountData view).Reads := Exec.reads_gets _

theorem returns_setLamports (view : AccountView) (n : UInt64) : (setLamports view n).Returns :=
  Exec.returns_modify _

theorem returns_setData (view : AccountView) (bytes : List UInt8) : (setData view bytes).Returns :=
  Exec.returns_modify _

/-- Checks, and then one write of account data. -/
def WritesDataLast (x : Program Unit) : Prop :=
  Exec.ChecksFirst (fun last => ∃ view bytes, last = setData view bytes) x

theorem WritesDataLast.atomic {x : Program Unit} (writes : WritesDataLast x) : x.Atomic := by
  refine Exec.ChecksFirst.atomic writes ?_
  rintro _ ⟨view, bytes, rfl⟩
  exact (returns_setData view bytes).atomic

theorem run_ensure (c : Prop) [Decidable c] (e : ProgramError) (m : Machine) :
    (ensure c e).run m = (if c then .ok () else .error (.error e), m) :=
  Exec.run_require c _ m

theorem meets_orFail {A : Type} {opt : Option A} {e : ProgramError} {m : Machine}
    {good : A → Machine → Prop} {bad : Abort → Machine → Prop} :
    (orFail opt e).Meets m good bad ↔
      (∀ a, opt = some a → good a m) ∧ (opt = none → bad (.error e) m) := by
  rw [orFail, Exec.meets_lift]
  cases opt <;> simp [okOr]

theorem invoke_eq_ok {callee : Callee} {instruction : InstructionView} {m n : Machine}
    {u : Unit} : (invoke callee instruction).run m = (.ok u, n) ↔
      ∃ ledger, callee m.ledger instruction = .ok ledger ∧
        n = ⟨ledger, m.cpis ++ [⟨instruction, m.ledger, .ok ledger⟩], m.writes⟩ := by
  unfold Exec.run invoke
  cases callee m.ledger instruction <;> simp [eq_comm]

theorem invoke_bind_eq_ok {B : Type} {callee : Callee} {instruction : InstructionView}
    {rest : Unit → Program B} {m n : Machine} {b : B} :
    (invoke callee instruction >>= rest).run m = (.ok b, n) ↔
      ∃ ledger, callee m.ledger instruction = .ok ledger ∧
        (rest ()).run ⟨ledger, m.cpis ++ [⟨instruction, m.ledger, .ok ledger⟩], m.writes⟩ =
          (.ok b, n) := by
  simp only [Exec.bind_eq_ok, invoke_eq_ok]
  constructor
  · intro given
    obtain ⟨_, _, ⟨ledger, answer, rfl⟩, ran⟩ := given
    exact ⟨ledger, answer, ran⟩
  · intro given
    obtain ⟨ledger, answer, ran⟩ := given
    exact ⟨(), _, ⟨ledger, answer, rfl⟩, ran⟩

section Submit

variable {program : List AccountView → List UInt8 → Program Unit} {ledger : Ledger}
  {transaction : List AccountView × List UInt8} {m : Machine}

theorem submit_of_ok {u : Unit}
    (ok : (program transaction.1 transaction.2).run (Machine.start ledger) = (.ok u, m)) :
    submit program ledger transaction = m.ledger := by
  rw [submit, ok]

theorem submit_of_error {abort : Abort}
    (stopped : (program transaction.1 transaction.2).run (Machine.start ledger) =
      (.error abort, m)) : submit program ledger transaction = ledger := by
  rw [submit, stopped]

theorem submit_cases (program : List AccountView → List UInt8 → Program Unit) (ledger : Ledger)
    (transaction : List AccountView × List UInt8) :
    submit program ledger transaction = ledger ∨
      ∃ m, (program transaction.1 transaction.2).run (Machine.start ledger) = (.ok (), m) ∧
        submit program ledger transaction = m.ledger := by
  cases ended : (program transaction.1 transaction.2).run (Machine.start ledger) with
  | mk result m =>
      cases result with
      | error abort => exact .inl (submit_of_error ended)
      | ok returned => exact .inr ⟨m, rfl, submit_of_ok ended⟩

end Submit

theorem calleeOf_eq_ok {program : Address → List AccountView → List UInt8 → Program Unit}
    {ledger after : Ledger} {instruction : InstructionView} :
    calleeOf program ledger instruction = .ok after ↔
      ∃ m, (program instruction.programId (instruction.accounts.map InstructionAccount.view)
        instruction.data).run (Machine.start ledger) = (.ok (), m) ∧ m.ledger = after := by
  unfold calleeOf
  rcases Exec.run _ _ with ⟨_ | u, m⟩
  · simp
  · simp

theorem calleeOf_eq_error {program : Address → List AccountView → List UInt8 → Program Unit}
    {ledger : Ledger} {instruction : InstructionView} {abort : Abort} :
    calleeOf program ledger instruction = .error abort ↔
      ∃ m, (program instruction.programId (instruction.accounts.map InstructionAccount.view)
        instruction.data).run (Machine.start ledger) = (.error abort, m) := by
  unfold calleeOf
  rcases Exec.run _ _ with ⟨_ | u, m⟩
  · simp
  · simp

theorem meets_invoke {callee : Callee} {instruction : InstructionView} {m : Machine}
    {good : Unit → Machine → Prop} {bad : Abort → Machine → Prop} :
    (invoke callee instruction).Meets m good bad ↔
      (∀ ledger, callee m.ledger instruction = .ok ledger →
        good () ⟨ledger, m.cpis ++ [⟨instruction, m.ledger, .ok ledger⟩], m.writes⟩) ∧
      (∀ abort, callee m.ledger instruction = .error abort →
        bad abort ⟨m.ledger, m.cpis ++ [⟨instruction, m.ledger, .error abort⟩], m.writes⟩) := by
  unfold Exec.Meets Exec.run invoke
  cases callee m.ledger instruction <;> simp

/-! ## Slices and unchecked integers -/

/-- The value of an unchecked `usize` expression. -/
def usize (n : Nat) : Except Abort Nat := if n < 2 ^ 64 then .ok n else .error .wrapped

/-- The value of an unchecked `u128` expression. -/
def u128 (n : Nat) : Except Abort Nat := if n < 2 ^ 128 then .ok n else .error .wrapped

/-- `xs[i]`, with `i` an unchecked `usize` expression. -/
def index {A : Type} (xs : List A) (i : Nat) : Except Abort A := do
  let i ← usize i
  match xs[i]? with
  | some x => .ok x
  | none => .error .indexOutOfRange

theorem usize_of_lt {n : Nat} (bound : n < 2 ^ 64) : usize n = .ok n := if_pos bound

theorem u128_of_lt {n : Nat} (bound : n < 2 ^ 128) : u128 n = .ok n := if_pos bound

theorem usize_of_ge {n : Nat} (beyond : 2 ^ 64 ≤ n) : usize n = .error .wrapped :=
  if_neg (Nat.not_lt.mpr beyond)

theorem index_eq_ok {A : Type} {xs : List A} {i : Nat} {x : A} :
    index xs i = .ok x ↔ i < 2 ^ 64 ∧ xs[i]? = some x := by
  unfold index
  rcases Nat.lt_or_ge i (2 ^ 64) with bound | beyond
  · rw [usize_of_lt bound, and_iff_right bound]
    cases found : xs[i]? <;> simp [bind, Except.bind, found]
  · have tooLarge : ¬i < 2 ^ 64 := Nat.not_lt.mpr beyond
    rw [usize_of_ge beyond]
    constructor
    · intro impossible
      cases impossible
    · intro given
      obtain ⟨small, _⟩ := given
      exact absurd small tooLarge

theorem index_of_lt {A : Type} {xs : List A} {i : Nat} (small : i < 2 ^ 64)
    (inRange : i < xs.length) : index xs i = .ok xs[i] :=
  index_eq_ok.mpr ⟨small, List.getElem?_eq_getElem inRange⟩

end HopperBench.Solana
