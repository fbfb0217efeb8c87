import HopperBench.Library.CheckedWord
import HopperBench.Library.WordField
import HopperBench.Solana.Runtime

/-!
# The primitives program

The two instructions of the primitives program that raise a stored balance: disc
15 writes a `BenchVault` through a mutable overlay, disc 19 deposits into a
`ProcBenchVault` through a typed context.  The checks the framework makes before
it hands a field out are parameters, and `Framework.Lawful` states that a field
it hands out lies inside the account's data.
-/

set_option autoImplicit false

namespace HopperBench.BenchProgram

open StoppingRun CheckedWord WordField HopperBench.Solana

def headerLen : Nat := 16

/-- `authority`, `balance` and `bump` behind the header. -/
def benchVaultLen : Nat := headerLen + 32 + 8 + 1

def benchBalanceOffset : Nat := headerLen + 32

/-- `balance` and `pending_rewards` behind the header. -/
def procVaultLen : Nat := headerLen + 8 + 8

def procBalanceOffset : Nat := headerLen

/-! ## The framework -/

structure Framework where
  checkOwner : AccountView → Account → Address → Except ProgramError Unit
  checkWritable : AccountView → Except ProgramError Unit
  /-- Whether `BenchVault::overlay_mut` hands out the overlay. -/
  overlayMut : List UInt8 → Except ProgramError Unit
  /-- Whether `ctx.vault_balance_mut()` hands out the balance of the vault. -/
  vaultBalanceMut : AccountView → Account → Except ProgramError Unit

structure Framework.Lawful (hopper : Framework) : Prop where
  overlaySized : ∀ data, hopper.overlayMut data = .ok () → benchVaultLen ≤ data.length
  balanceSized : ∀ view account, hopper.vaultBalanceMut view account = .ok () →
    procVaultLen ≤ account.data.length

def requireSize (len : Nat) (data : List UInt8) : Except ProgramError Unit :=
  if len ≤ data.length then .ok () else .error .accountDataTooSmall

theorem requireSize_eq_ok {len : Nat} {data : List UInt8} :
    requireSize len data = .ok () ↔ len ≤ data.length := by
  unfold requireSize
  split <;> simp_all

def sizedFramework : Framework where
  checkOwner := fun _ account programId =>
    if account.owner = programId then .ok () else .error .incorrectProgramId
  checkWritable := fun view => if view.isWritable = true then .ok () else .error .immutable
  overlayMut := requireSize benchVaultLen
  vaultBalanceMut := fun view account =>
    if view.isWritable = true then requireSize procVaultLen account.data else .error .immutable

theorem sizedFramework_lawful : sizedFramework.Lawful where
  overlaySized := fun _ granted => requireSize_eq_ok.mp granted
  balanceSized := by
    intro view account granted
    simp only [sizedFramework] at granted
    split at granted
    · exact requireSize_eq_ok.mp granted
    · cases granted

def benchOverlayMutFieldSet (hopper : Framework) (accounts : List AccountView)
    (programId : Address) : Program Unit := do
  let vault ← orFail accounts.head? .notEnoughAccountKeys
  let viewed ← account vault
  Exec.lift (propagate (hopper.checkOwner vault viewed programId))
  Exec.lift (propagate (hopper.checkWritable vault))
  Exec.lift (propagate (hopper.overlayMut viewed.data))
  -- the release profile leaves the plain `+` unchecked: it wraps
  let next := wordAt benchBalanceOffset viewed.data + 1
  setData vault (setWordAt benchBalanceOffset next viewed.data)

def typedDeposit (hopper : Framework) (vault : AccountView) (amount : UInt64) : Program Unit := do
  let viewed ← account vault
  Exec.lift (propagate (hopper.vaultBalanceMut vault viewed))
  let next ← orFail (checkedAdd (wordAt procBalanceOffset viewed.data) amount) .arithmeticOverflow
  setData vault (setWordAt procBalanceOffset next viewed.data)

/-! ## Specifications -/

/-- The machine after the word at `offset` of the vault's data was raised by `n`,
modulo the word size. -/
def raised (offset : Nat) (n : UInt64) (vault : AccountView) (m : Machine) : Machine :=
  let data := (m.ledger vault.address).data
  ⟨m.ledger.setData vault.address (setWordAt offset (wordAt offset data + n) data), m.cpis,
    m.writes ++ [vault]⟩

structure OverlayGranted (hopper : Framework) (programId : Address) (vault : AccountView)
    (viewed : Account) : Prop where
  owned : hopper.checkOwner vault viewed programId = .ok ()
  writable : hopper.checkWritable vault = .ok ()
  overlaid : hopper.overlayMut viewed.data = .ok ()

section Specifications

variable {hopper : Framework} {programId : Address} {before after : Machine} {u : Unit}

theorem benchOverlayMutFieldSet_eq_ok {accounts : List AccountView} :
    (benchOverlayMutFieldSet hopper accounts programId).run before = (.ok u, after) ↔
      ∃ vault, accounts.head? = some vault ∧
        OverlayGranted hopper programId vault (before.ledger vault.address) ∧
        after = raised benchBalanceOffset 1 vault before := by
  simp only [benchOverlayMutFieldSet, orFail_bind_eq_ok, run_account_bind, Exec.lift_bind_eq_ok,
    propagate_eq_ok]
  constructor
  · intro given
    obtain ⟨vault, listed, _, owned, _, writable, _, overlaid, written⟩ := given
    cases written
    exact ⟨vault, listed, ⟨owned, writable, overlaid⟩, rfl⟩
  · intro conditions
    obtain ⟨vault, listed, granted, written⟩ := conditions
    refine ⟨vault, listed, (), granted.owned, (), granted.writable, (), granted.overlaid, ?_⟩
    rw [written]
    rfl

theorem typedDeposit_eq_ok {vault : AccountView} {amount : UInt64} :
    (typedDeposit hopper vault amount).run before = (.ok u, after) ↔
      (hopper.vaultBalanceMut vault (before.ledger vault.address) = .ok () ∧
        (wordAt procBalanceOffset (before.ledger vault.address).data).toNat + amount.toNat <
          2 ^ 64) ∧
      after = raised procBalanceOffset amount vault before := by
  simp only [typedDeposit, run_account_bind, Exec.lift_bind_eq_ok, propagate_eq_ok,
    orFail_bind_eq_ok, checkedAdd_eq_some_add]
  constructor
  · intro given
    obtain ⟨_, granted, _, ⟨room, rfl⟩, written⟩ := given
    cases written
    exact ⟨⟨granted, room⟩, rfl⟩
  · intro conditions
    obtain ⟨⟨granted, room⟩, written⟩ := conditions
    refine ⟨(), granted, _, ⟨room, rfl⟩, ?_⟩
    rw [written]
    rfl

theorem benchOverlayMutFieldSet_writesDataLast (accounts : List AccountView) :
    WritesDataLast (benchOverlayMutFieldSet hopper accounts programId) := by
  unfold benchOverlayMutFieldSet
  apply Exec.ChecksFirst.check (reads_orFail _ _)
  intro vault
  apply Exec.ChecksFirst.check (reads_account _)
  intro viewed
  apply Exec.ChecksFirst.check (Exec.reads_lift _)
  intro _
  apply Exec.ChecksFirst.check (Exec.reads_lift _)
  intro _
  apply Exec.ChecksFirst.check (Exec.reads_lift _)
  intro _
  exact .last ⟨_, _, rfl⟩

theorem typedDeposit_writesDataLast (vault : AccountView) (amount : UInt64) :
    WritesDataLast (typedDeposit hopper vault amount) := by
  unfold typedDeposit
  apply Exec.ChecksFirst.check (reads_account _)
  intro viewed
  apply Exec.ChecksFirst.check (Exec.reads_lift _)
  intro _
  apply Exec.ChecksFirst.check (reads_orFail _ _)
  intro next
  exact .last ⟨_, _, rfl⟩

end Specifications

end HopperBench.BenchProgram
