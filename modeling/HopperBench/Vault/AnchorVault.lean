import HopperBench.Library.WordField
import HopperBench.Vault.PinocchioVault

/-!
# The Anchor vault's withdraw and counter access

The handlers check the funds and move the lamports, and compare the authority
and raise the counter.  Everything else is declared as account constraints,
which Anchor turns into code that is not part of the repository: that code is a
parameter, and `Lawful` says what the constraints on the `Withdraw` and the
`CounterAccess` accounts ask for.
-/

set_option autoImplicit false

namespace HopperBench.AnchorVault

open StoppingRun LittleEndian CheckedWord WordField HopperBench.Solana

/-- `VaultError`, as Anchor numbers it. -/
inductive VaultError where
  | insufficientFunds
  | arithmeticOverflow
  | authorityMismatch
deriving DecidableEq

def VaultError.code : VaultError → UInt32
  | insufficientFunds => 6000
  | arithmeticOverflow => 6001
  | authorityMismatch => 6002

/-- `#[instruction(discriminator = ..)]` of `withdraw` -/
def withdrawDiscriminator : List UInt8 := [1, 0, 0, 0, 0, 0, 0, 0]

/-- The handler `withdraw`.  The vault is written before the user's new balance
is computed, and the right side of an assignment is evaluated first. -/
def withdraw (user vault : AccountView) (amount : UInt64) : Program Unit := do
  let vaultLamports ← lamports vault
  ensure (¬amount > vaultLamports) (.custom VaultError.insufficientFunds.code)
  setLamports vault (vaultLamports - amount)
  let userLamports ← lamports user
  let userNext ← orFail (checkedAdd userLamports amount)
    (.custom VaultError.arithmeticOverflow.code)
  setLamports user userNext

/-- What Anchor generates around the handler: the decoding of the instruction
data, and the construction of the checked `Withdraw` accounts. -/
structure Generated where
  args : List UInt8 → Except Abort UInt64
  accounts : Address → List AccountView → Except Abort (AccountView × AccountView)

/-- The constraints of `Withdraw`: `user` is a `mut` signer, `vault` is `mut` and
has the address derived from its seeds.  An `AccountInfo` is not checked any
further.  `programId` stands for the id the crate was built with (`declare_id!`,
rewritten for each deployment); a program runs under that id only. -/
structure Generated.Lawful (generated : Generated) (find : PinocchioVault.FindProgramAddress) :
    Prop where
  decodes : ∀ amount, generated.args (withdrawDiscriminator ++ List.ofFn (u64Bytes amount)) =
    .ok amount
  checks : ∀ programId user vault bound, generated.accounts programId [user, vault] = .ok bound ↔
    bound = (user, vault) ∧ PinocchioVault.Authorized find programId user vault ∧
      vault.isWritable = true

def checkedAccounts (find : PinocchioVault.FindProgramAddress) : Generated where
  args := fun data =>
    if data.take 8 = withdrawDiscriminator then
      .ok (u64OfBytes ((data.drop 8).take 8))
    else .error (.error (.custom 101))
  accounts := fun programId accounts =>
    match accounts with
    | user :: vault :: _ =>
        if user.isSigner = true ∧ user.isWritable = true ∧
            PinocchioVault.vaultAddress find programId user.address = vault.address ∧
            vault.isWritable = true then
          .ok (user, vault)
        else .error (.error (.custom 2000))
    | _ => .error (.error (.custom 3005))

theorem checkedAccounts_lawful (find : PinocchioVault.FindProgramAddress) :
    (checkedAccounts find).Lawful find where
  decodes := by
    intro amount
    have head : (withdrawDiscriminator ++ List.ofFn (u64Bytes amount)).take 8 =
        withdrawDiscriminator := List.take_left' rfl
    have tail : (withdrawDiscriminator ++ List.ofFn (u64Bytes amount)).drop 8 =
        List.ofFn (u64Bytes amount) := List.drop_left' rfl
    simp only [checkedAccounts]
    rw [if_pos head, tail, List.take_of_length_le (by simp), u64OfBytes_u64Bytes]
  checks := by
    intro programId user vault bound
    simp only [checkedAccounts]
    by_cases passes : user.isSigner = true ∧ user.isWritable = true ∧
        PinocchioVault.vaultAddress find programId user.address = vault.address ∧
        vault.isWritable = true
    · obtain ⟨signed, writable, derived, vaultWritable⟩ := passes
      rw [if_pos ⟨signed, writable, derived, vaultWritable⟩]
      constructor
      · intro same
        exact ⟨(Except.ok.inj same).symm, ⟨signed, writable, derived⟩, vaultWritable⟩
      · intro conditions
        obtain ⟨same, _⟩ := conditions
        rw [same]
    · rw [if_neg passes]
      constructor
      · intro impossible
        cases impossible
      · intro conditions
        obtain ⟨_, ⟨signed, writable, derived⟩, vaultWritable⟩ := conditions
        exact absurd ⟨signed, writable, derived, vaultWritable⟩ passes

def processWithdraw (generated : Generated) (programId : Address) (accounts : List AccountView)
    (data : List UInt8) : Program Unit := do
  let amount ← Exec.lift (generated.args data)
  let bound ← Exec.lift (generated.accounts programId accounts)
  withdraw bound.1 bound.2 amount

theorem withdraw_eq_ok {user vault : AccountView} {amount : UInt64} {before after : Machine}
    {u : Unit} (distinct : user.address ≠ vault.address) :
    (withdraw user vault amount).run before = (.ok u, after) ↔
      amount.toNat ≤ before.ledger.balances vault.address ∧
        before.ledger.balances user.address + amount.toNat < 2 ^ 64 ∧
        after = ⟨(before.ledger.setLamports vault.address
          ((before.ledger vault.address).lamports - amount)).setLamports user.address
          ((before.ledger user.address).lamports + amount), before.cpis,
          before.writes ++ [vault] ++ [user]⟩ := by
  have unread : ∀ n, (before.ledger.setLamports vault.address n) user.address =
      before.ledger user.address := fun n => by
    rw [Ledger.setLamports, Function.update_of_ne distinct]
  simp only [withdraw, run_lamports_bind, ensure_bind_eq_ok, run_setLamports_bind,
    orFail_bind_eq_ok, checkedAdd_eq_some_add, gt_iff_lt, UInt64.not_lt, UInt64.le_iff_toNat_le,
    unread]
  constructor
  · intro given
    obtain ⟨covers, _, ⟨room, rfl⟩, written⟩ := given
    cases written
    exact ⟨covers, room, rfl⟩
  · intro conditions
    obtain ⟨covers, room, written⟩ := conditions
    refine ⟨covers, _, ⟨room, rfl⟩, ?_⟩
    rw [written]
    rfl

/-! ## Counter access -/

structure CounterState where
  authority : List UInt8
  counter : UInt64

def counterStateDiscriminator : List UInt8 := [0x62, 0x17, 0xcd, 0x9f, 0x0e, 0xca, 0x4f, 0x8b]

/-- Bytes 8..48 of the account's data as `load_mut` views them. -/
def counterState (data : List UInt8) : CounterState where
  authority := (data.drop 8).take 32
  counter := wordAt 40 data

/-- What Anchor generates around the handler: the construction of the checked
`CounterAccess` accounts, and whether `load_mut` gives the view out. -/
structure CounterGenerated where
  accounts : Address → Ledger → List AccountView → Except Abort (AccountView × AccountView)
  loadMut : AccountView → Account → Except Abort Unit

/-- The constraints of `CounterAccess`: those of `Withdraw`, and that the loaded
vault belongs to the program, under the id it was built with, and carries the
discriminator. -/
structure CounterGenerated.Lawful (generated : CounterGenerated)
    (find : PinocchioVault.FindProgramAddress) : Prop where
  checks : ∀ programId ledger user vault bound,
    generated.accounts programId ledger [user, vault] = .ok bound ↔
      bound = (user, vault) ∧ PinocchioVault.Authorized find programId user vault ∧
        vault.isWritable = true ∧ (ledger vault.address).owner = programId ∧
        (ledger vault.address).data.take 8 = counterStateDiscriminator
  views : ∀ vault account, generated.loadMut vault account = .ok () ↔
    vault.isWritable = true ∧ account.data.take 8 = counterStateDiscriminator ∧
      48 ≤ account.data.length

def counterAccess (generated : CounterGenerated) (user vault : AccountView) : Program Unit := do
  let viewed ← account vault
  Exec.lift (generated.loadMut vault viewed)
  let state := counterState viewed.data
  ensure (state.authority = List.ofFn user.address) (.custom VaultError.authorityMismatch.code)
  let counter ← orFail (checkedAdd state.counter 1) (.custom VaultError.arithmeticOverflow.code)
  setData vault (setWordAt 40 counter viewed.data)

def processCounterAccess (generated : CounterGenerated) (programId : Address)
    (accounts : List AccountView) : Program Unit := do
  let ledger ← Exec.gets Machine.ledger
  let bound ← Exec.lift (generated.accounts programId ledger accounts)
  counterAccess generated bound.1 bound.2

theorem counterAccess_eq_ok {generated : CounterGenerated} {user vault : AccountView}
    {before after : Machine} {u : Unit} :
    (counterAccess generated user vault).run before = (.ok u, after) ↔
      generated.loadMut vault (before.ledger vault.address) = .ok () ∧
        ((before.ledger vault.address).data.drop 8).take 32 = List.ofFn user.address ∧
        (wordAt 40 (before.ledger vault.address).data).toNat + 1 < 2 ^ 64 ∧
        after = ⟨before.ledger.setData vault.address
          (setWordAt 40 (wordAt 40 (before.ledger vault.address).data + 1)
            (before.ledger vault.address).data), before.cpis, before.writes ++ [vault]⟩ := by
  simp only [counterAccess, run_account_bind, Exec.lift_bind_eq_ok, ensure_bind_eq_ok,
    orFail_bind_eq_ok, checkedAdd_eq_some_add]
  constructor
  · intro given
    obtain ⟨_, viewed, authority, _, ⟨room, rfl⟩, written⟩ := given
    cases written
    exact ⟨viewed, authority, room, rfl⟩
  · intro conditions
    obtain ⟨viewed, authority, room, written⟩ := conditions
    refine ⟨(), viewed, authority, _, ⟨room, rfl⟩, ?_⟩
    rw [written]
    rfl

theorem processCounterAccess_eq_ok {generated : CounterGenerated}
    {find : PinocchioVault.FindProgramAddress} (lawful : generated.Lawful find)
    {programId : Address} {user vault : AccountView} {before after : Machine} {u : Unit} :
    (processCounterAccess generated programId [user, vault]).run before = (.ok u, after) ↔
      (PinocchioVault.Authorized find programId user vault ∧ vault.isWritable = true ∧
        (before.ledger vault.address).owner = programId ∧
        (before.ledger vault.address).data.take 8 = counterStateDiscriminator) ∧
      (counterAccess generated user vault).run before = (.ok u, after) := by
  simp only [processCounterAccess, Exec.run_gets_bind, Exec.lift_bind_eq_ok, lawful.checks]
  constructor
  · intro given
    obtain ⟨_, ⟨rfl, checked⟩, ran⟩ := given
    exact ⟨checked, ran⟩
  · intro conditions
    obtain ⟨checked, ran⟩ := conditions
    exact ⟨(user, vault), ⟨rfl, checked⟩, ran⟩

theorem processCounterAccess_writesDataLast (generated : CounterGenerated) (programId : Address)
    (accounts : List AccountView) :
    WritesDataLast (processCounterAccess generated programId accounts) := by
  apply Exec.ChecksFirst.check (Exec.reads_gets _)
  intro ledger
  apply Exec.ChecksFirst.check (Exec.reads_lift _)
  intro bound
  apply Exec.ChecksFirst.check (reads_account _)
  intro viewed
  apply Exec.ChecksFirst.check (Exec.reads_lift _)
  intro _
  apply Exec.ChecksFirst.check (reads_ensure _ _)
  intro _
  apply Exec.ChecksFirst.check (reads_orFail _ _)
  intro counter
  exact .last ⟨_, _, rfl⟩

def checkedCounter (find : PinocchioVault.FindProgramAddress) : CounterGenerated where
  accounts := fun programId ledger accounts =>
    match accounts with
    | user :: vault :: _ =>
        if (user.isSigner = true ∧ user.isWritable = true ∧
            PinocchioVault.vaultAddress find programId user.address = vault.address) ∧
            vault.isWritable = true ∧ (ledger vault.address).owner = programId ∧
            (ledger vault.address).data.take 8 = counterStateDiscriminator then
          .ok (user, vault)
        else .error (.error (.custom 3002))
    | _ => .error (.error (.custom 3005))
  loadMut := fun vault account =>
    if vault.isWritable = true ∧ account.data.take 8 = counterStateDiscriminator ∧
        48 ≤ account.data.length then .ok ()
    else .error (.error (.custom 3006))

theorem checkedCounter_lawful (find : PinocchioVault.FindProgramAddress) :
    (checkedCounter find).Lawful find where
  checks := by
    intro programId ledger user vault bound
    simp only [checkedCounter]
    split
    case isTrue passes =>
      obtain ⟨⟨signed, writable, derived⟩, checked⟩ := passes
      rw [Except.ok.injEq]
      constructor
      · intro same
        exact ⟨same.symm, ⟨signed, writable, derived⟩, checked⟩
      · intro conditions
        exact conditions.1.symm
    case isFalse fails =>
      constructor
      · intro impossible
        cases impossible
      · intro conditions
        obtain ⟨_, ⟨signed, writable, derived⟩, checked⟩ := conditions
        exact absurd ⟨⟨signed, writable, derived⟩, checked⟩ fails
  views := by
    intro vault account
    simp only [checkedCounter]
    split
    case isTrue passes => exact iff_of_true rfl passes
    case isFalse fails => exact iff_of_false (by simp) fails

end HopperBench.AnchorVault
