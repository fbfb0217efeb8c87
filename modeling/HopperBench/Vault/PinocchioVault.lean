import HopperBench.Library.CheckedWord
import HopperBench.Solana.Bytes

/-!
# The Pinocchio vault

Four instructions on `[user, vault]`: a deposit through the system program, a
withdraw by direct lamport mutation, a validation gate, and a counter in the
vault's data.  This is the on-chain build, where the vault address is checked
against the derived one.  The derivation and the system program are parameters.
-/

set_option autoImplicit false

namespace HopperBench.PinocchioVault

open StoppingRun LittleEndian CheckedWord HopperBench.Solana

def systemProgramId : Address := fun _ => 0

def counterDataLen : Nat := 40

/-- `b"vault"` -/
def vaultSeed : List UInt8 := [118, 97, 117, 108, 116]

/-- `Address::find_program_address`: the derived address and its bump. -/
abbrev FindProgramAddress := List (List UInt8) → Address → Address × UInt8

def vaultAddress (find : FindProgramAddress) (programId user : Address) : Address :=
  (find [vaultSeed, List.ofFn user] programId).1

def sampleDerivation : FindProgramAddress := fun seeds _ =>
  (fun byte => (seeds.getD 1 []).getD byte 0 + 100, 255)

/-- The call that `Transfer { from, to, lamports }` issues: the system program's
instruction 2. -/
def transferInstruction (source destination : Address) (amount : UInt64) : InstructionView where
  programId := systemProgramId
  accounts := [⟨source, true, true⟩, ⟨destination, true, false⟩]
  data := List.ofFn (u32Bytes 2) ++ List.ofFn (u64Bytes amount)

def parseAmount (data : List UInt8) : Except Abort UInt64 :=
  if data.length < 8 then .error (.error .invalidInstructionData)
  else u64At data [0, 1, 2, 3, 4, 5, 6, 7]

def verifyVaultPda (find : FindProgramAddress) (user vault : AccountView) (programId : Address) :
    Program Unit :=
  ensure (vaultAddress find programId user.address = vault.address) .invalidSeeds

def validateAuthority (user : AccountView) : Program Unit := do
  ensure (user.isSigner = true) .missingRequiredSignature
  ensure (user.isWritable = true) .invalidAccountData

def validateWritable (account : AccountView) : Program Unit :=
  ensure (account.isWritable = true) .invalidAccountData

def processDeposit (find : FindProgramAddress) (system : Callee) (programId : Address)
    (accounts : List AccountView) (data : List UInt8) : Program Unit :=
  match accounts with
  | user :: vault :: systemProgram :: _ => do
      validateAuthority user
      let amount ← Exec.lift (parseAmount data)
      validateWritable vault
      ensure (systemProgram.address = systemProgramId) .incorrectProgramId
      verifyVaultPda find user vault programId
      invoke system (transferInstruction user.address vault.address amount)
  | _ => Exec.stop (.error .notEnoughAccountKeys)

def processWithdraw (find : FindProgramAddress) (programId : Address)
    (accounts : List AccountView) (data : List UInt8) : Program Unit :=
  match accounts with
  | user :: vault :: _ => do
      validateAuthority user
      let amount ← Exec.lift (parseAmount data)
      let vaultOwner ← owner vault
      ensure (vaultOwner = programId) .invalidAccountOwner
      validateWritable vault
      verifyVaultPda find user vault programId
      let vaultLamports ← lamports vault
      ensure (¬amount > vaultLamports) .insufficientFunds
      let userLamports ← lamports user
      let userNext ← orFail (checkedAdd userLamports amount) .arithmeticOverflow
      setLamports vault (vaultLamports - amount)
      setLamports user userNext
  | _ => Exec.stop (.error .notEnoughAccountKeys)

def processAuthorize (find : FindProgramAddress) (programId : Address)
    (accounts : List AccountView) : Program Unit :=
  match accounts with
  | user :: vault :: _ => do
      validateAuthority user
      validateWritable vault
      verifyVaultPda find user vault programId
  | _ => Exec.stop (.error .notEnoughAccountKeys)

def processCounterAccess (find : FindProgramAddress) (programId : Address)
    (accounts : List AccountView) : Program Unit :=
  match accounts with
  | user :: vault :: _ => do
      validateAuthority user
      verifyVaultPda find user vault programId
      let data ← accountData vault
      ensure (¬data.length < counterDataLen) .accountDataTooSmall
      ensure (data.take 32 = List.ofFn user.address) .invalidAccountData
      let counter ← Exec.lift (u64At data [32, 33, 34, 35, 36, 37, 38, 39])
      let next ← orFail (checkedAdd counter 1) .arithmeticOverflow
      setData vault (data.take 32 ++ List.ofFn (u64Bytes next) ++ data.drop 40)
  | _ => Exec.stop (.error .notEnoughAccountKeys)

def processInstruction (find : FindProgramAddress) (system : Callee) (programId : Address)
    (accounts : List AccountView) (data : List UInt8) : Program Unit :=
  match data with
  | [] => Exec.stop (.error .invalidInstructionData)
  | disc :: rest =>
      match disc with
      | 0 => processDeposit find system programId accounts rest
      | 1 => processWithdraw find programId accounts rest
      | 2 => processAuthorize find programId accounts
      | 3 => processCounterAccess find programId accounts
      | _ => Exec.stop (.error .invalidInstructionData)

/-! ## Specifications -/

/-- The checks that every instruction on a vault makes of its user and address. -/
structure Authorized (find : FindProgramAddress) (programId : Address) (user vault : AccountView) :
    Prop where
  userSigned : user.isSigner = true
  userWritable : user.isWritable = true
  vaultDerived : vaultAddress find programId user.address = vault.address

structure Deposited (find : FindProgramAddress) (system : Callee) (programId : Address)
    (user vault : AccountView) (amount : UInt64) (before after : Machine) : Prop where
  authorized : Authorized find programId user vault
  vaultWritable : vault.isWritable = true
  transferred : system before.ledger (transferInstruction user.address vault.address amount) =
    .ok after.ledger

structure Withdrew (find : FindProgramAddress) (programId : Address) (user vault : AccountView)
    (amount : UInt64) (before after : Machine) : Prop where
  authorized : Authorized find programId user vault
  vaultOwned : (before.ledger vault.address).owner = programId
  vaultWritable : vault.isWritable = true
  vaultCovers : amount.toNat ≤ before.ledger.balances vault.address
  userRoom : before.ledger.balances user.address + amount.toNat < 2 ^ 64
  written : after = ⟨(before.ledger.setLamports vault.address
    ((before.ledger vault.address).lamports - amount)).setLamports user.address
    ((before.ledger user.address).lamports + amount), before.cpis,
    before.writes ++ [vault] ++ [user]⟩

structure CounterReady (user : AccountView) (bytes : List UInt8) : Prop where
  longEnough : counterDataLen ≤ bytes.length
  authorityStored : bytes.take 32 = List.ofFn user.address
  counterRoom : (u64OfBytes ((bytes.drop 32).take 8)).toNat + 1 < 2 ^ 64

def countedBytes (bytes : List UInt8) : List UInt8 :=
  bytes.take 32 ++ List.ofFn (u64Bytes (u64OfBytes ((bytes.drop 32).take 8) + 1)) ++ bytes.drop 40

theorem validateAuthority_bind_eq_ok {B : Type} {user : AccountView} {rest : Unit → Program B}
    {m n : Machine} {b : B} :
    (validateAuthority user >>= rest).run m = (.ok b, n) ↔
      (user.isSigner = true ∧ user.isWritable = true) ∧ (rest ()).run m = (.ok b, n) := by
  rw [validateAuthority, Exec.bind_bind, ensure_bind_eq_ok, ensure_bind_eq_ok, and_assoc]

theorem parseAmount_encode (amount : UInt64) :
    parseAmount (List.ofFn (u64Bytes amount)) = .ok amount := by
  have read := u64At_range (List.ofFn (u64Bytes amount)) 0 (by simp) (by simp)
  rw [List.drop_zero, List.take_of_length_le (by simp), u64OfBytes_u64Bytes] at read
  simp only [Nat.zero_add] at read
  rw [parseAmount, if_neg (by simp), read]

section Handlers

variable {find : FindProgramAddress} {system : Callee} {programId : Address}
  {accounts : List AccountView} {data : List UInt8} {before after : Machine} {u : Unit}

theorem processWithdraw_eq_ok {user vault : AccountView} {rest : List AccountView} :
    (processWithdraw find programId (user :: vault :: rest) data).run before = (.ok u, after) ↔
      ∃ amount, parseAmount data = .ok amount ∧
        Withdrew find programId user vault amount before after := by
  simp only [processWithdraw, validateWritable, verifyVaultPda, validateAuthority_bind_eq_ok,
    Exec.lift_bind_eq_ok, run_owner_bind, ensure_bind_eq_ok, run_lamports_bind, orFail_bind_eq_ok,
    checkedAdd_eq_some_add, gt_iff_lt, UInt64.not_lt, UInt64.le_iff_toNat_le]
  constructor
  · intro given
    obtain ⟨⟨signed, userWritable⟩, amount, parsed, owned, vaultWritable, derived, covers, _,
      ⟨room, rfl⟩, written⟩ := given
    cases written
    exact ⟨amount, parsed, ⟨signed, userWritable, derived⟩, owned, vaultWritable, covers, room, rfl⟩
  · intro conditions
    obtain ⟨amount, parsed, withdrew⟩ := conditions
    obtain ⟨⟨signed, userWritable, derived⟩, owned, vaultWritable, covers, room, written⟩ :=
      withdrew
    refine ⟨⟨signed, userWritable⟩, amount, parsed, owned, vaultWritable, derived, covers, _,
      ⟨room, rfl⟩, ?_⟩
    rw [written]
    rfl

theorem processDeposit_ok {user vault : AccountView} {rest : List AccountView}
    (ok : (processDeposit find system programId (user :: vault :: rest) data).run before =
      (.ok u, after)) :
    ∃ amount, parseAmount data = .ok amount ∧
      Deposited find system programId user vault amount before after := by
  cases rest with
  | nil => cases ok
  | cons systemProgram others =>
      simp only [processDeposit, validateWritable, verifyVaultPda, validateAuthority_bind_eq_ok,
        Exec.lift_bind_eq_ok, ensure_bind_eq_ok, invoke_eq_ok] at ok
      obtain ⟨⟨signed, userWritable⟩, amount, parsed, vaultWritable, _, derived, ledger, answer,
        rfl⟩ := ok
      exact ⟨amount, parsed, ⟨signed, userWritable, derived⟩, vaultWritable, answer⟩

theorem processCounterAccess_eq_ok {user vault : AccountView} {rest : List AccountView} :
    (processCounterAccess find programId (user :: vault :: rest)).run before = (.ok u, after) ↔
      (Authorized find programId user vault ∧
        CounterReady user (before.ledger vault.address).data) ∧
      after = ⟨before.ledger.setData vault.address
        (countedBytes (before.ledger vault.address).data), before.cpis,
        before.writes ++ [vault]⟩ := by
  have read : counterDataLen ≤ (before.ledger vault.address).data.length →
      u64At (before.ledger vault.address).data [32, 33, 34, 35, 36, 37, 38, 39] =
        .ok (u64OfBytes (((before.ledger vault.address).data.drop 32).take 8)) :=
    fun longEnough => u64At_range _ 32 longEnough (by decide)
  simp only [processCounterAccess, verifyVaultPda, validateAuthority_bind_eq_ok, ensure_bind_eq_ok,
    run_accountData_bind, Exec.lift_bind_eq_ok, orFail_bind_eq_ok, checkedAdd_eq_some_add,
    Nat.not_lt]
  constructor
  · intro given
    obtain ⟨⟨signed, userWritable⟩, derived, longEnough, authority, counter, counterRead, _,
      ⟨room, rfl⟩, written⟩ := given
    rw [read longEnough] at counterRead
    cases counterRead
    cases written
    exact ⟨⟨⟨signed, userWritable, derived⟩, longEnough, authority, room⟩, rfl⟩
  · intro conditions
    obtain ⟨⟨⟨signed, userWritable, derived⟩, longEnough, authority, room⟩, written⟩ := conditions
    refine ⟨⟨signed, userWritable⟩, derived, longEnough, authority, _, read longEnough, _,
      ⟨room, rfl⟩, ?_⟩
    rw [written]
    rfl

theorem validateAuthority_reads (user : AccountView) : (validateAuthority user).Reads :=
  (reads_ensure _ _).bind fun _ => reads_ensure _ _

theorem validateWritable_reads (view : AccountView) : (validateWritable view).Reads :=
  reads_ensure _ _

theorem verifyVaultPda_reads (find : FindProgramAddress) (user vault : AccountView)
    (programId : Address) : (verifyVaultPda find user vault programId).Reads :=
  reads_ensure _ _

theorem processAuthorize_reads : (processAuthorize find programId accounts).Reads := by
  unfold processAuthorize
  split
  · apply (validateAuthority_reads _).bind
    intro _
    apply (validateWritable_reads _).bind
    intro _
    exact verifyVaultPda_reads _ _ _ _
  · exact Exec.reads_stop _

theorem processDeposit_checksFirst :
    Exec.ChecksFirst (fun last => ∃ instruction, last = invoke system instruction)
      (processDeposit find system programId accounts data) := by
  unfold processDeposit
  split
  · apply Exec.ChecksFirst.check (validateAuthority_reads _)
    intro _
    apply Exec.ChecksFirst.check (Exec.reads_lift _)
    intro amount
    apply Exec.ChecksFirst.check (validateWritable_reads _)
    intro _
    apply Exec.ChecksFirst.check (reads_ensure _ _)
    intro _
    apply Exec.ChecksFirst.check (verifyVaultPda_reads _ _ _ _)
    intro _
    exact .last ⟨_, rfl⟩
  · exact .stop _

theorem processWithdraw_checksFirst :
    Exec.ChecksFirst (fun last => ∃ first second n n',
        last = setLamports first n >>= fun _ => setLamports second n')
      (processWithdraw find programId accounts data) := by
  unfold processWithdraw
  split
  · apply Exec.ChecksFirst.check (validateAuthority_reads _)
    intro _
    apply Exec.ChecksFirst.check (Exec.reads_lift _)
    intro amount
    apply Exec.ChecksFirst.check (reads_owner _)
    intro vaultOwner
    apply Exec.ChecksFirst.check (reads_ensure _ _)
    intro _
    apply Exec.ChecksFirst.check (validateWritable_reads _)
    intro _
    apply Exec.ChecksFirst.check (verifyVaultPda_reads _ _ _ _)
    intro _
    apply Exec.ChecksFirst.check (reads_lamports _)
    intro vaultLamports
    apply Exec.ChecksFirst.check (reads_ensure _ _)
    intro _
    apply Exec.ChecksFirst.check (reads_lamports _)
    intro userLamports
    apply Exec.ChecksFirst.check (reads_orFail _ _)
    intro userNext
    exact .last ⟨_, _, _, _, rfl⟩
  · exact .stop _

theorem processCounterAccess_writesDataLast :
    WritesDataLast (processCounterAccess find programId accounts) := by
  unfold processCounterAccess
  split
  · apply Exec.ChecksFirst.check (validateAuthority_reads _)
    intro _
    apply Exec.ChecksFirst.check (verifyVaultPda_reads _ _ _ _)
    intro _
    apply Exec.ChecksFirst.check (reads_accountData _)
    intro data
    apply Exec.ChecksFirst.check (reads_ensure _ _)
    intro _
    apply Exec.ChecksFirst.check (reads_ensure _ _)
    intro _
    apply Exec.ChecksFirst.check (Exec.reads_lift _)
    intro counter
    apply Exec.ChecksFirst.check (reads_orFail _ _)
    intro next
    exact .last ⟨_, _, rfl⟩
  · exact .stop _

theorem processCounterAccess_keeps (sheet : Address → Nat) :
    (processCounterAccess find programId accounts).Keeps fun m => m.ledger.balances = sheet := by
  refine Exec.ChecksFirst.keeps processCounterAccess_writesDataLast ?_
  rintro _ ⟨vault, bytes, rfl⟩ m kept
  change (m.ledger.setData _ _).balances = sheet
  rw [balances_setData]
  exact kept

/-- What an instruction that returned `Ok` did, by its discriminator. -/
inductive Effect (find : FindProgramAddress) (system : Callee) (programId : Address)
    (accounts : List AccountView) (data : List UInt8) (before after : Machine) : Prop where
  | deposited {user vault : AccountView} {rest : List AccountView} {payload : List UInt8}
      {amount : UInt64} (accountsExact : accounts = user :: vault :: rest)
      (dataExact : data = 0 :: payload) (parsed : parseAmount payload = .ok amount)
      (effect : Deposited find system programId user vault amount before after)
  | withdrew {user vault : AccountView} {rest : List AccountView} {payload : List UInt8}
      {amount : UInt64} (accountsExact : accounts = user :: vault :: rest)
      (dataExact : data = 1 :: payload) (parsed : parseAmount payload = .ok amount)
      (effect : Withdrew find programId user vault amount before after)
  | unmoved (notDeposit : data.head? ≠ some 0) (notWithdraw : data.head? ≠ some 1)
      (kept : after.ledger.balances = before.ledger.balances)

theorem processInstruction_effect
    (ok : (processInstruction find system programId accounts data).run before = (.ok u, after)) :
    Effect find system programId accounts data before after := by
  cases data with
  | nil => cases ok
  | cons disc payload =>
      simp only [processInstruction] at ok
      split at ok
      case h_1 =>
        match accounts, ok with
        | user :: vault :: rest, ok =>
            obtain ⟨amount, parsed, effect⟩ := processDeposit_ok ok
            exact .deposited rfl rfl parsed effect
      case h_2 =>
        match accounts, ok with
        | user :: vault :: rest, ok =>
            obtain ⟨amount, parsed, effect⟩ := processWithdraw_eq_ok.mp ok
            exact .withdrew rfl rfl parsed effect
      case h_3 =>
        have kept := (processAuthorize_reads.keeps fun m =>
          m.ledger.balances = before.ledger.balances).kept_of_ok rfl ok
        exact .unmoved (by simp) (by simp) kept
      case h_4 =>
        have kept := (processCounterAccess_keeps before.ledger.balances).kept_of_ok rfl ok
        exact .unmoved (by simp) (by simp) kept
      case h_5 => cases ok

end Handlers

end HopperBench.PinocchioVault
