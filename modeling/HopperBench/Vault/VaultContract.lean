import HopperBench.Vault.Accounting
import HopperBench.Vault.AnchorProgram
import HopperBench.Vault.CounterParity

/-!
# The contract of the vault programs

Both programs of this workspace, on the instructions that the runner builds for
them: when a deposit, a withdraw, the gate and a counter access are accepted,
and exactly what an accepted one leaves.  The vault is the one derived for the
user.
-/

set_option autoImplicit false

namespace HopperBench.VaultContract

open StoppingRun LittleEndian CheckedWord WordField HopperBench.Solana HopperBench.PinocchioVault
  HopperBench.WithdrawParity

/-! ## The instructions -/

def depositInstruction (spec : ProgramSpec) (user : Address) (userIsSigner : Bool)
    (vault systemProgram : Address) (amount : UInt64) : InstructionView where
  programId := spec.programId
  accounts := [⟨user, true, userIsSigner⟩, ⟨vault, true, false⟩, ⟨systemProgram, false, false⟩]
  data := instructionData spec 0 ++ List.ofFn (u64Bytes amount)

def authorizeInstruction (spec : ProgramSpec) (user : Address) (userIsSigner : Bool)
    (vault : Address) : InstructionView where
  programId := spec.programId
  accounts := [⟨user, true, userIsSigner⟩, ⟨vault, true, false⟩]
  data := instructionData spec 2

def counterAccessInstruction (spec : ProgramSpec) (user : Address) (userIsSigner : Bool)
    (vault : Address) : InstructionView where
  programId := spec.programId
  accounts := [⟨user, true, userIsSigner⟩, ⟨vault, true, false⟩]
  data := instructionData spec 3

inductive Operation where
  | deposit (amount : UInt64)
  | withdraw (amount : UInt64)
  | authorize
  | counterAccess
deriving DecidableEq

structure Action where
  user : Address
  signed : Bool
  operation : Operation
deriving DecidableEq

/-- The runner's instruction, on the user's derived vault. -/
def instructionOf (find : FindProgramAddress) (spec : ProgramSpec) (action : Action) :
    InstructionView :=
  let vault := vaultAddress find spec.programId action.user
  match action.operation with
  | .deposit amount =>
      depositInstruction spec action.user action.signed vault systemProgramId amount
  | .withdraw amount => withdrawInstruction spec action.user action.signed vault amount
  | .authorize => authorizeInstruction spec action.user action.signed vault
  | .counterAccess => counterAccessInstruction spec action.user action.signed vault

/-! ## What an accepted instruction leaves -/

/-- `amount` lamports taken from `source` and given to `destination`. -/
def transferred (ledger : Ledger) (source destination : Address) (amount : UInt64) : Ledger :=
  (ledger.setLamports source ((ledger source).lamports - amount)).setLamports destination
    ((ledger destination).lamports + amount)

/-- A transfer through the system program between two accounts: it is accepted
when a plain source holds the amount and the destination has room, and moves
exactly the amount. -/
def TransfersAsDocumented (system : Callee) : Prop :=
  ∀ ledger source destination amount after, source ≠ destination →
    (ledger source).owner = systemProgramId → (ledger source).data = [] →
      (system ledger (transferInstruction source destination amount) = .ok after ↔
        (amount.toNat ≤ ledger.balances source ∧
          ledger.balances destination + amount.toNat < 2 ^ 64) ∧
        after = transferred ledger source destination amount)

/-- The counter that a user's vault data carries behind the program's header. -/
def counterOf (header : List UInt8) (user : Address) (data : List UInt8) : Option Nat :=
  if data.take header.length = header ∧ header.length + 40 ≤ data.length ∧
      (data.drop header.length).take 32 = List.ofFn user then
    some (wordAt (header.length + 32) data).toNat
  else none

def countedData (header data : List UInt8) : List UInt8 :=
  setWordAt (header.length + 32) (wordAt (header.length + 32) data + 1) data

/-- What the parity contract says of a program, for each instruction. -/
structure Obeys (find : FindProgramAddress) (spec : ProgramSpec) (header : List UInt8)
    (program : Address → List AccountView → List UInt8 → Program Unit) : Prop where
  unsigned : ∀ ledger action after, action.signed = false →
    calleeOf program ledger (instructionOf find spec action) ≠ .ok after
  deposit : ∀ ledger user amount after, user ≠ vaultAddress find spec.programId user →
    (ledger user).owner = systemProgramId → (ledger user).data = [] →
      (calleeOf program ledger (instructionOf find spec ⟨user, true, .deposit amount⟩) =
          .ok after ↔
        (amount.toNat ≤ ledger.balances user ∧
          ledger.balances (vaultAddress find spec.programId user) + amount.toNat < 2 ^ 64) ∧
        after = transferred ledger user (vaultAddress find spec.programId user) amount)
  withdraw : ∀ ledger user amount after, user ≠ vaultAddress find spec.programId user →
    (ledger (vaultAddress find spec.programId user)).owner = spec.programId →
      (calleeOf program ledger (instructionOf find spec ⟨user, true, .withdraw amount⟩) =
          .ok after ↔
        (amount.toNat ≤ ledger.balances (vaultAddress find spec.programId user) ∧
          ledger.balances user + amount.toNat < 2 ^ 64) ∧
        after = transferred ledger (vaultAddress find spec.programId user) user amount)
  authorize : ∀ ledger user after,
    calleeOf program ledger (instructionOf find spec ⟨user, true, .authorize⟩) = .ok after ↔
      after = ledger
  counterAccess : ∀ ledger user after,
    (ledger (vaultAddress find spec.programId user)).owner = spec.programId →
      (calleeOf program ledger (instructionOf find spec ⟨user, true, .counterAccess⟩) =
          .ok after ↔
        (∃ n, counterOf header user (ledger (vaultAddress find spec.programId user)).data =
            some n ∧ n + 1 < 2 ^ 64) ∧
        after = ledger.setData (vaultAddress find spec.programId user)
          (countedData header (ledger (vaultAddress find spec.programId user)).data))

theorem calleeOf_accepts {program : Address → List AccountView → List UInt8 → Program Unit}
    {ledger after final : Ledger} {instruction : InstructionView} {c : Prop}
    {cpis : List CpiRecord} {writes : List AccountView}
    (ran : ∀ m, (program instruction.programId (instruction.accounts.map InstructionAccount.view)
      instruction.data).run (Machine.start ledger) = (.ok (), m) ↔ c ∧ m = ⟨final, cpis, writes⟩) :
    calleeOf program ledger instruction = .ok after ↔ c ∧ after = final := by
  rw [calleeOf_eq_ok]
  constructor
  · intro given
    obtain ⟨m, finished, same⟩ := given
    obtain ⟨holds, exact⟩ := (ran m).mp finished
    exact ⟨holds, by rw [← same, exact]⟩
  · intro given
    obtain ⟨holds, same⟩ := given
    exact ⟨_, (ran _).mpr ⟨holds, rfl⟩, same.symm⟩

theorem transfer_eq_ok {system : Callee} (documented : TransfersAsDocumented system)
    {source destination : Address} {amount : UInt64} {m n : Machine} {u : Unit}
    (distinct : source ≠ destination) (plain : (m.ledger source).owner = systemProgramId)
    (empty : (m.ledger source).data = []) :
    (invoke system (transferInstruction source destination amount)).run m = (.ok u, n) ↔
      (amount.toNat ≤ m.ledger.balances source ∧
        m.ledger.balances destination + amount.toNat < 2 ^ 64) ∧
      n = ⟨transferred m.ledger source destination amount,
        m.cpis ++ [⟨transferInstruction source destination amount, m.ledger,
          .ok (transferred m.ledger source destination amount)⟩], m.writes⟩ := by
  rw [invoke_eq_ok]
  simp only [documented _ _ _ _ _ distinct plain empty]
  constructor
  · intro given
    obtain ⟨_, ⟨possible, rfl⟩, exact⟩ := given
    exact ⟨possible, exact⟩
  · intro given
    obtain ⟨possible, exact⟩ := given
    exact ⟨_, ⟨possible, rfl⟩, exact⟩

theorem transferred_source {ledger : Ledger} {source destination : Address} (amount : UInt64)
    (distinct : source ≠ destination) :
    (transferred ledger source destination amount source).lamports =
      (ledger source).lamports - amount := by
  rw [transferred, setLamports_other _ distinct, Ledger.setLamports, Function.update_self]

theorem transferred_destination (ledger : Ledger) (source destination : Address)
    (amount : UInt64) :
    (transferred ledger source destination amount destination).lamports =
      (ledger destination).lamports + amount := by
  rw [transferred, Ledger.setLamports, Function.update_self]

section Pinocchio

variable {find : FindProgramAddress} {system : Callee} {programId : Address}
  {user vault : AccountView} {u : Unit} {m n : Machine}

theorem pinocchio_deposit_eq_ok {systemProgram : AccountView} {amount : UInt64} :
    (processDeposit find system programId [user, vault, systemProgram]
      (List.ofFn (u64Bytes amount))).run m = (.ok u, n) ↔
      (Authorized find programId user vault ∧ vault.isWritable = true ∧
        systemProgram.address = systemProgramId) ∧
      (invoke system (transferInstruction user.address vault.address amount)).run m =
        (.ok u, n) := by
  simp only [processDeposit, validateWritable, verifyVaultPda, validateAuthority_bind_eq_ok,
    Exec.lift_bind_eq_ok, ensure_bind_eq_ok, parseAmount_encode]
  constructor
  · intro given
    obtain ⟨⟨signed, userWritable⟩, read, parsed, writable, isSystem, derived, ran⟩ := given
    obtain rfl : amount = read := Except.ok.inj parsed
    exact ⟨⟨⟨signed, userWritable, derived⟩, writable, isSystem⟩, ran⟩
  · intro conditions
    obtain ⟨⟨⟨signed, userWritable, derived⟩, writable, isSystem⟩, ran⟩ := conditions
    exact ⟨⟨signed, userWritable⟩, amount, rfl, writable, isSystem, derived, ran⟩

theorem pinocchio_authorize_eq_ok :
    (processAuthorize find programId [user, vault]).run m = (.ok u, n) ↔
      (Authorized find programId user vault ∧ vault.isWritable = true) ∧ n = m := by
  simp only [processAuthorize, validateWritable, verifyVaultPda, validateAuthority_bind_eq_ok,
    ensure_bind_eq_ok]
  constructor
  · intro given
    obtain ⟨⟨signed, userWritable⟩, writable, ran⟩ := given
    obtain ⟨derived, same⟩ := ensure_eq_ok.mp ran
    exact ⟨⟨⟨signed, userWritable, derived⟩, writable⟩, same.symm⟩
  · intro conditions
    obtain ⟨⟨⟨signed, userWritable, derived⟩, writable⟩, same⟩ := conditions
    exact ⟨⟨signed, userWritable⟩, writable, ensure_eq_ok.mpr ⟨derived, same.symm⟩⟩

end Pinocchio

def userView (user : Address) (signed : Bool) : AccountView := ⟨user, signed, true⟩

def vaultView (vault : Address) : AccountView := ⟨vault, false, true⟩

def systemView : AccountView := ⟨systemProgramId, false, false⟩

theorem authorized_iff {find : FindProgramAddress} {programId user : Address} {signed : Bool} :
    Authorized find programId (userView user signed)
        (vaultView (vaultAddress find programId user)) ↔ signed = true := by
  constructor
  · intro authorized
    exact authorized.userSigned
  · intro isSigned
    exact ⟨isSigned, rfl, rfl⟩

/-- The runner's flags are in order, so that a withdraw is left to the lamports. -/
theorem payable_iff {find : FindProgramAddress} {programId user : Address} {amount : UInt64}
    {ledger : Ledger} :
    Payable find programId (userView user true) (vaultView (vaultAddress find programId user))
        amount ledger ↔
      amount.toNat ≤ ledger.balances (vaultAddress find programId user) ∧
        ledger.balances user + amount.toNat < 2 ^ 64 := by
  constructor
  · intro payable
    exact ⟨payable.vaultCovers, payable.userRoom⟩
  · intro possible
    obtain ⟨covers, room⟩ := possible
    exact ⟨authorized_iff.mpr rfl, rfl, covers, room⟩

theorem counterOf_room {header : List UInt8} {user : Address} {data : List UInt8} :
    (∃ n, counterOf header user data = some n ∧ n + 1 < 2 ^ 64) ↔
      (data.take header.length = header ∧ header.length + 40 ≤ data.length ∧
        (data.drop header.length).take 32 = List.ofFn user) ∧
      (wordAt (header.length + 32) data).toNat + 1 < 2 ^ 64 := by
  unfold counterOf
  split
  case isTrue carries =>
    rw [and_iff_right carries]
    constructor
    · intro given
      obtain ⟨n, same, room⟩ := given
      rw [Option.some.inj same]
      exact room
    · intro room
      exact ⟨_, rfl, room⟩
  case isFalse lacks =>
    constructor
    · intro given
      obtain ⟨_, impossible, _⟩ := given
      cases impossible
    · intro given
      exact absurd given.1 lacks

theorem counterReady_iff {user : AccountView} {data : List UInt8} :
    CounterReady user data ↔ ∃ n, counterOf [] user.address data = some n ∧ n + 1 < 2 ^ 64 := by
  rw [counterOf_room]
  constructor
  · intro ready
    have long : 40 ≤ data.length := ready.longEnough
    exact ⟨⟨rfl, by rw [List.length_nil, Nat.zero_add]; exact long, ready.authorityStored⟩,
      ready.counterRoom⟩
  · intro given
    obtain ⟨⟨_, long, authority⟩, room⟩ := given
    rw [List.length_nil, Nat.zero_add] at long
    exact ⟨long, authority, room⟩

theorem pinocchio_obeys (find : FindProgramAddress) {system : Callee}
    (documented : TransfersAsDocumented system) (programId : Address) :
    Obeys find ⟨"pinocchio", programId⟩ [] (processInstruction find system) where
  unsigned := by
    intro ledger action after unsigned accepted
    obtain ⟨user, signed, operation⟩ := action
    obtain ⟨m, ran, _⟩ := calleeOf_eq_ok.mp accepted
    have refused : ¬Authorized find programId (userView user signed)
        (vaultView (vaultAddress find programId user)) := by
      intro authorized
      have isSigned : signed = true := authorized.userSigned
      rw [show signed = false from unsigned] at isSigned
      cases isSigned
    cases operation with
    | deposit amount => exact refused (pinocchio_deposit_eq_ok.mp ran).1.1
    | withdraw amount =>
        have withdrew : (pinocchioRun find system programId (userView user signed)
            (vaultView (vaultAddress find programId user)) amount).run (Machine.start ledger) =
              (.ok (), m) := ran
        exact refused (pinocchioRun_eq_ok.mp withdrew).1.1.authorized
    | authorize => exact refused (pinocchio_authorize_eq_ok.mp ran).1.1
    | counterAccess =>
        have counted : (processCounterAccess find programId [userView user signed,
            vaultView (vaultAddress find programId user)]).run (Machine.start ledger) =
              (.ok (), m) := ran
        exact refused (processCounterAccess_eq_ok.mp counted).1.1
  deposit := by
    intro ledger user amount after distinct plain empty
    apply calleeOf_accepts
    intro m
    change (processDeposit find system programId [userView user true,
      vaultView (vaultAddress find programId user), systemView] (List.ofFn (u64Bytes amount))).run
        _ = _ ↔ _
    rw [pinocchio_deposit_eq_ok, and_iff_right ⟨authorized_iff.mpr rfl, rfl, rfl⟩]
    exact transfer_eq_ok documented distinct plain empty
  withdraw := by
    intro ledger user amount after distinct owned
    apply calleeOf_accepts
    intro m
    change (pinocchioRun find system programId (userView user true)
      (vaultView (vaultAddress find programId user)) amount).run _ = _ ↔ _
    have ownVault : (ledger (vaultView (vaultAddress find programId user)).address).owner =
        programId := owned
    rw [pinocchioRun_eq_ok, and_iff_left ownVault, payable_iff]
    rfl
  authorize := by
    intro ledger user after
    have gate : calleeOf (processInstruction find system) ledger
        (instructionOf find ⟨"pinocchio", programId⟩ ⟨user, true, .authorize⟩) = .ok after ↔
          True ∧ after = ledger := by
      apply calleeOf_accepts
      intro m
      change (processAuthorize find programId [userView user true,
        vaultView (vaultAddress find programId user)]).run _ = _ ↔ _
      rw [pinocchio_authorize_eq_ok, true_and, and_iff_right ⟨authorized_iff.mpr rfl, rfl⟩]
      rfl
    rw [gate, true_and]
  counterAccess := by
    intro ledger user after owned
    apply calleeOf_accepts
    intro m
    change (processCounterAccess find programId [userView user true,
      vaultView (vaultAddress find programId user)]).run _ = _ ↔ _
    rw [processCounterAccess_eq_ok, and_iff_right (authorized_iff.mpr rfl), counterReady_iff]
    rfl

def handlerOf : Operation → AnchorProgram.Handler
  | .deposit _ => .deposit
  | .withdraw _ => .withdraw
  | .authorize => .authorize
  | .counterAccess => .counterAccess

section Anchor

variable {find : FindProgramAddress} {generated : AnchorProgram.Generated} {system : Callee}
  {programId : Address} {user vault : AccountView} {u : Unit} {m n : Machine}

/-- The eight bytes in front of the runner's instruction select its handler. -/
theorem anchor_selected (lawful : generated.Lawful find) (action : Action) :
    let instruction := instructionOf find ⟨"anchor", programId⟩ action
    (AnchorProgram.processInstruction generated system instruction.programId
        (instruction.accounts.map InstructionAccount.view) instruction.data).run m =
      (AnchorProgram.process generated system instruction.programId
        (instruction.accounts.map InstructionAccount.view) instruction.data
        (handlerOf action.operation)).run m := by
  intro instruction
  have begins : ∃ payload, instruction.data =
      (handlerOf action.operation).discriminator ++ payload := by
    obtain ⟨user, signed, operation⟩ := action
    cases operation with
    | deposit amount => exact ⟨List.ofFn (u64Bytes amount), rfl⟩
    | withdraw amount => exact ⟨List.ofFn (u64Bytes amount), rfl⟩
    | authorize => exact ⟨[], rfl⟩
    | counterAccess => exact ⟨[], rfl⟩
  obtain ⟨payload, exact⟩ := begins
  rw [exact]
  exact AnchorProgram.processInstruction_selected lawful _ payload _

theorem anchor_withdraw_authorized (lawful : generated.Lawful find) {data : List UInt8}
    (ran : (AnchorVault.processWithdraw generated.withdraw programId [user, vault] data).run m =
      (.ok u, n)) : Authorized find programId user vault := by
  simp only [AnchorVault.processWithdraw, Exec.lift_bind_eq_ok, lawful.withdraw.checks] at ran
  obtain ⟨_, _, _, ⟨_, authorized, _⟩, _⟩ := ran
  exact authorized

theorem anchor_counter_eq_ok (lawful : generated.Lawful find) :
    (AnchorVault.processCounterAccess generated.counter programId [user, vault]).run m =
        (.ok u, n) ↔
      (Authorized find programId user vault ∧ vault.isWritable = true ∧
        (m.ledger vault.address).owner = programId ∧
        ∃ n, counterOf AnchorVault.counterStateDiscriminator user.address
          (m.ledger vault.address).data = some n ∧ n + 1 < 2 ^ 64) ∧
      n = ⟨m.ledger.setData vault.address (countedData AnchorVault.counterStateDiscriminator
        (m.ledger vault.address).data), m.cpis, m.writes ++ [vault]⟩ := by
  have size : AnchorVault.counterStateDiscriminator.length = 8 := rfl
  rw [AnchorVault.processCounterAccess_eq_ok lawful.counter, AnchorVault.counterAccess_eq_ok,
    counterOf_room, countedData, lawful.counter.views, size]
  constructor
  · intro accepted
    obtain ⟨⟨authorized, writable, owned, carries⟩, ⟨_, _, long⟩, authority, room, written⟩ :=
      accepted
    exact ⟨⟨authorized, writable, owned, ⟨carries, long, authority⟩, room⟩, written⟩
  · intro conditions
    obtain ⟨⟨authorized, writable, owned, ⟨carries, long, authority⟩, room⟩, written⟩ := conditions
    exact ⟨⟨authorized, writable, owned, carries⟩, ⟨writable, carries, long⟩, authority, room,
      written⟩

end Anchor

theorem anchor_obeys {find : FindProgramAddress} {generated : AnchorProgram.Generated}
    (lawful : generated.Lawful find) {system : Callee}
    (documented : TransfersAsDocumented system) (programId : Address) :
    Obeys find ⟨"anchor", programId⟩ AnchorVault.counterStateDiscriminator
      (AnchorProgram.processInstruction generated system) where
  unsigned := by
    intro ledger action after unsigned accepted
    obtain ⟨user, signed, operation⟩ := action
    obtain ⟨m, ran, _⟩ := calleeOf_eq_ok.mp accepted
    rw [anchor_selected lawful] at ran
    have refused : ¬Authorized find programId (userView user signed)
        (vaultView (vaultAddress find programId user)) := by
      intro authorized
      have isSigned : signed = true := authorized.userSigned
      rw [show signed = false from unsigned] at isSigned
      cases isSigned
    cases operation with
    | deposit amount =>
        exact refused ((AnchorProgram.processDeposit_eq_ok lawful).mp ran).1.1
    | withdraw amount =>
        exact refused (anchor_withdraw_authorized lawful ran)
    | authorize =>
        exact refused ((AnchorProgram.processAuthorize_eq_ok lawful).mp ran).1.1
    | counterAccess =>
        exact refused ((anchor_counter_eq_ok lawful).mp ran).1.1
  deposit := by
    intro ledger user amount after distinct plain empty
    apply calleeOf_accepts
    intro m
    rw [anchor_selected lawful]
    change (AnchorProgram.processDeposit generated system programId [userView user true,
      vaultView (vaultAddress find programId user), systemView]
        (AnchorProgram.Handler.deposit.discriminator ++ List.ofFn (u64Bytes amount))).run _ = _ ↔ _
    rw [AnchorProgram.processDeposit_eq_ok lawful,
      and_iff_right ⟨authorized_iff.mpr rfl, rfl, rfl⟩]
    exact transfer_eq_ok documented distinct plain empty
  withdraw := by
    intro ledger user amount after distinct owned
    apply calleeOf_accepts
    intro m
    rw [anchor_selected lawful]
    change (anchorRun generated.withdraw programId (userView user true)
      (vaultView (vaultAddress find programId user)) amount).run _ = _ ↔ _
    rw [anchorRun_eq_ok lawful.withdraw rfl distinct, payable_iff]
    rfl
  authorize := by
    intro ledger user after
    have gate : calleeOf (AnchorProgram.processInstruction generated system) ledger
        (instructionOf find ⟨"anchor", programId⟩ ⟨user, true, .authorize⟩) = .ok after ↔
          True ∧ after = ledger := by
      apply calleeOf_accepts
      intro m
      rw [anchor_selected lawful]
      change (AnchorProgram.processAuthorize generated programId [userView user true,
        vaultView (vaultAddress find programId user)]).run _ = _ ↔ _
      rw [AnchorProgram.processAuthorize_eq_ok lawful, true_and,
        and_iff_right ⟨authorized_iff.mpr rfl, rfl⟩]
      rfl
    rw [gate, true_and]
  counterAccess := by
    intro ledger user after owned
    apply calleeOf_accepts
    intro m
    rw [anchor_selected lawful]
    change (AnchorVault.processCounterAccess generated.counter programId [userView user true,
      vaultView (vaultAddress find programId user)]).run _ = _ ↔ _
    rw [anchor_counter_eq_ok lawful]
    have ownVault : (ledger (vaultView (vaultAddress find programId user)).address).owner =
        programId := owned
    constructor
    · intro accepted
      obtain ⟨⟨_, _, _, counts⟩, written⟩ := accepted
      exact ⟨counts, written⟩
    · intro conditions
      obtain ⟨counts, written⟩ := conditions
      exact ⟨⟨authorized_iff.mpr rfl, rfl, ownVault, counts⟩, written⟩

end HopperBench.VaultContract
