import HopperBench.Vault.AnchorVault

/-!
# The Anchor vault as one program

The entry point that Anchor generates selects a handler by the eight bytes its
attribute names, decodes the arguments behind them and builds the checked
accounts.  The selection, the decoding and the checks are parameters, as in the
module of the two handlers that write; `Lawful` says what the attributes and
the account constraints ask for.
-/

set_option autoImplicit false

namespace HopperBench.AnchorProgram

open StoppingRun LittleEndian HopperBench.Solana HopperBench.PinocchioVault

inductive Handler where
  | deposit
  | withdraw
  | authorize
  | counterAccess
deriving DecidableEq

/-- `#[instruction(discriminator = ..)]` -/
def Handler.discriminator : Handler → List UInt8
  | deposit => [0, 0, 0, 0, 0, 0, 0, 0]
  | withdraw => AnchorVault.withdrawDiscriminator
  | authorize => [2, 0, 0, 0, 0, 0, 0, 0]
  | counterAccess => [3, 0, 0, 0, 0, 0, 0, 0]

/-- The handler `deposit`. -/
def deposit (system : Callee) (user vault : AccountView) (amount : UInt64) : Program Unit :=
  invoke system (transferInstruction user.address vault.address amount)

/-- The handler `authorize`: the constraints have already checked everything. -/
def authorize (_user _vault : AccountView) : Program Unit := pure ()

/-! ## The generated entry point -/

structure Deposit where
  user : AccountView
  vault : AccountView
  systemProgram : AccountView
deriving DecidableEq

structure Generated where
  select : List UInt8 → Except Abort Handler
  depositArgs : List UInt8 → Except Abort UInt64
  depositAccounts : Address → List AccountView → Except Abort Deposit
  withdraw : AnchorVault.Generated
  authorizeAccounts : Address → List AccountView → Except Abort (AccountView × AccountView)
  counter : AnchorVault.CounterGenerated

/-- The attributes of the four handlers and the constraints of their accounts:
`Authorize` declares those of `Withdraw`, and `Deposit` adds the system program.
As there, `programId` is the id the crate was built with. -/
structure Generated.Lawful (generated : Generated) (find : FindProgramAddress) : Prop where
  selects : ∀ handler payload, generated.select (Handler.discriminator handler ++ payload) =
    .ok handler
  depositDecodes : ∀ amount, generated.depositArgs
    (Handler.deposit.discriminator ++ List.ofFn (u64Bytes amount)) = .ok amount
  depositChecks : ∀ programId user vault systemProgram bound,
    generated.depositAccounts programId [user, vault, systemProgram] = .ok bound ↔
      bound = ⟨user, vault, systemProgram⟩ ∧ Authorized find programId user vault ∧
        vault.isWritable = true ∧ systemProgram.address = systemProgramId
  withdraw : generated.withdraw.Lawful find
  authorizeChecks : ∀ programId user vault bound,
    generated.authorizeAccounts programId [user, vault] = .ok bound ↔
      bound = (user, vault) ∧ Authorized find programId user vault ∧ vault.isWritable = true
  counter : generated.counter.Lawful find

def processDeposit (generated : Generated) (system : Callee) (programId : Address)
    (accounts : List AccountView) (data : List UInt8) : Program Unit := do
  let amount ← Exec.lift (generated.depositArgs data)
  let bound ← Exec.lift (generated.depositAccounts programId accounts)
  deposit system bound.user bound.vault amount

def processAuthorize (generated : Generated) (programId : Address)
    (accounts : List AccountView) : Program Unit := do
  let bound ← Exec.lift (generated.authorizeAccounts programId accounts)
  authorize bound.1 bound.2

def process (generated : Generated) (system : Callee) (programId : Address)
    (accounts : List AccountView) (data : List UInt8) : Handler → Program Unit
  | .deposit => processDeposit generated system programId accounts data
  | .withdraw => AnchorVault.processWithdraw generated.withdraw programId accounts data
  | .authorize => processAuthorize generated programId accounts
  | .counterAccess => AnchorVault.processCounterAccess generated.counter programId accounts

def processInstruction (generated : Generated) (system : Callee) (programId : Address)
    (accounts : List AccountView) (data : List UInt8) : Program Unit := do
  let handler ← Exec.lift (generated.select data)
  process generated system programId accounts data handler

section Handlers

variable {generated : Generated} {find : FindProgramAddress} {system : Callee}
  {programId : Address} {user vault : AccountView} {before after : Machine} {u : Unit}

theorem processInstruction_selected (lawful : generated.Lawful find) (handler : Handler)
    (payload : List UInt8) (accounts : List AccountView) :
    (processInstruction generated system programId accounts
        (handler.discriminator ++ payload)).run before =
      (process generated system programId accounts (handler.discriminator ++ payload)
        handler).run before := by
  rw [processInstruction, lawful.selects]
  rfl

theorem processDeposit_eq_ok (lawful : generated.Lawful find) {systemProgram : AccountView}
    {amount : UInt64} :
    (processDeposit generated system programId [user, vault, systemProgram]
      (Handler.deposit.discriminator ++ List.ofFn (u64Bytes amount))).run before =
        (.ok u, after) ↔
      (Authorized find programId user vault ∧ vault.isWritable = true ∧
        systemProgram.address = systemProgramId) ∧
      (deposit system user vault amount).run before = (.ok u, after) := by
  simp only [processDeposit, Exec.lift_bind_eq_ok, lawful.depositDecodes, lawful.depositChecks]
  constructor
  · intro given
    obtain ⟨read, decoded, bound, ⟨rfl, checked⟩, ran⟩ := given
    obtain rfl : amount = read := Except.ok.inj decoded
    exact ⟨checked, ran⟩
  · intro conditions
    obtain ⟨checked, ran⟩ := conditions
    exact ⟨amount, rfl, _, ⟨rfl, checked⟩, ran⟩

theorem processAuthorize_eq_ok (lawful : generated.Lawful find) :
    (processAuthorize generated programId [user, vault]).run before = (.ok u, after) ↔
      (Authorized find programId user vault ∧ vault.isWritable = true) ∧ after = before := by
  simp only [processAuthorize, authorize, Exec.lift_bind_eq_ok, lawful.authorizeChecks]
  constructor
  · intro given
    obtain ⟨_, ⟨_, checked⟩, returned⟩ := given
    cases returned
    exact ⟨checked, rfl⟩
  · intro conditions
    obtain ⟨checked, same⟩ := conditions
    subst same
    exact ⟨_, ⟨rfl, checked⟩, rfl⟩

end Handlers

def handlers : List Handler := [.deposit, .withdraw, .authorize, .counterAccess]

def checkedAnchor (find : FindProgramAddress) : Generated where
  select := fun data =>
    match handlers.find? fun handler => data.take 8 = handler.discriminator with
    | some handler => .ok handler
    | none => .error (.error (.custom 101))
  depositArgs := fun data => .ok (u64OfBytes ((data.drop 8).take 8))
  depositAccounts := fun programId accounts =>
    match accounts with
    | user :: vault :: systemProgram :: _ =>
        if (user.isSigner = true ∧ user.isWritable = true ∧
            vaultAddress find programId user.address = vault.address) ∧
            vault.isWritable = true ∧ systemProgram.address = systemProgramId then
          .ok ⟨user, vault, systemProgram⟩
        else .error (.error (.custom 2000))
    | _ => .error (.error (.custom 3005))
  withdraw := AnchorVault.checkedAccounts find
  authorizeAccounts := (AnchorVault.checkedAccounts find).accounts
  counter := AnchorVault.checkedCounter find

theorem checkedAnchor_lawful (find : FindProgramAddress) : (checkedAnchor find).Lawful find where
  selects := by
    intro handler payload
    have head : ((Handler.discriminator handler) ++ payload).take 8 = handler.discriminator := by
      cases handler <;> rfl
    simp only [checkedAnchor, head]
    cases handler <;> rfl
  depositDecodes := by
    intro amount
    have tail : (Handler.deposit.discriminator ++ List.ofFn (u64Bytes amount)).drop 8 =
        List.ofFn (u64Bytes amount) := List.drop_left' rfl
    simp only [checkedAnchor]
    rw [tail, List.take_of_length_le (by simp), u64OfBytes_u64Bytes]
  depositChecks := by
    intro programId user vault systemProgram bound
    simp only [checkedAnchor]
    split
    case isTrue passes =>
      obtain ⟨⟨signed, writable, derived⟩, checked⟩ := passes
      rw [Except.ok.injEq]
      constructor
      · intro same
        exact ⟨same.symm, ⟨signed, writable, derived⟩, checked⟩
      · intro conditions
        exact conditions.1.symm
    case isFalse fails =>
      constructor
      · intro impossible
        cases impossible
      · intro conditions
        obtain ⟨_, ⟨signed, writable, derived⟩, checked⟩ := conditions
        exact absurd ⟨⟨signed, writable, derived⟩, checked⟩ fails
  withdraw := AnchorVault.checkedAccounts_lawful find
  authorizeChecks := (AnchorVault.checkedAccounts_lawful find).checks
  counter := AnchorVault.checkedCounter_lawful find

end HopperBench.AnchorProgram
