import HopperBench.Vault.WithdrawParity
import HopperBench.Vault.WriteDiscipline

/-!
# What a failed withdraw leaves in memory

The Pinocchio handler makes every check, the one on the user's new balance
included, before its first write.  The Anchor handler writes the vault first, so
a credit that overflows stops it between its two writes.
-/

set_option autoImplicit false

namespace HopperBench.WithdrawFailure

open StoppingRun LittleEndian CheckedWord HopperBench.Solana HopperBench.PinocchioVault

/-- Where the handler stops, both accounts hold the lamports they held on entry. -/
def IntactOnError (handler : Program Unit) (user vault : AccountView) (ledger : Ledger) : Prop :=
  ∀ abort stopped, handler.run (Machine.start ledger) = (.error abort, stopped) →
    stopped.ledger.balances user.address = ledger.balances user.address ∧
      stopped.ledger.balances vault.address = ledger.balances vault.address

theorem intactOnError_of_atomic {handler : Program Unit} (atomic : handler.Atomic)
    (user vault : AccountView) (ledger : Ledger) : IntactOnError handler user vault ledger := by
  intro abort stopped failed
  rw [atomic _ _ _ failed]
  exact ⟨rfl, rfl⟩

/-! ## All checks first -/

theorem processWithdraw_atomic (find : FindProgramAddress) (programId : Address)
    (accounts : List AccountView) (data : List UInt8) :
    (processWithdraw find programId accounts data).Atomic := by
  refine processWithdraw_checksFirst.atomic ?_
  -- the two writes behind the checks cannot fail
  rintro _ ⟨first, second, n, n', rfl⟩
  exact ((returns_setLamports first n).bind fun _ => returns_setLamports second n').atomic

section Anchor

variable {user vault : AccountView} {amount : UInt64} {ledger : Ledger}

theorem withdraw_overflow_run (distinct : user.address ≠ vault.address)
    (covers : amount.toNat ≤ ledger.balances vault.address)
    (overflows : 2 ^ 64 ≤ ledger.balances user.address + amount.toNat) :
    (AnchorVault.withdraw user vault amount).run (Machine.start ledger) =
      (.error (.error (.custom AnchorVault.VaultError.arithmeticOverflow.code)),
        ⟨ledger.setLamports vault.address ((ledger vault.address).lamports - amount), [],
          [vault]⟩) := by
  have funded : ¬amount > (ledger vault.address).lamports := by
    rw [gt_iff_lt, UInt64.not_lt, UInt64.le_iff_toNat_le]
    exact covers
  have unread : (ledger.setLamports vault.address ((ledger vault.address).lamports - amount)
      user.address).lamports = (ledger user.address).lamports := by
    rw [Ledger.setLamports, Function.update_of_ne distinct]
  have full : checkedAdd (ledger user.address).lamports amount = none :=
    checkedAdd_eq_none.mpr overflows
  rw [AnchorVault.withdraw, run_lamports_bind]
  refine (run_ensure_bind funded).trans ?_
  rw [run_setLamports_bind, run_lamports_bind]
  dsimp only [Machine.start]
  rw [unread, full]
  rfl

theorem withdraw_intact (distinct : user.address ≠ vault.address)
    (room : ledger.balances vault.address < amount.toNat ∨
      ledger.balances user.address + amount.toNat < 2 ^ 64) :
    IntactOnError (AnchorVault.withdraw user vault amount) user vault ledger := by
  intro abort stopped failed
  rcases Nat.lt_or_ge (ledger.balances vault.address) amount.toNat with short | covers
  · have refused : ¬¬amount > (ledger vault.address).lamports :=
      not_not.mpr (UInt64.lt_iff_toNat_lt.mpr short)
    rw [AnchorVault.withdraw, run_lamports_bind] at failed
    have same : stopped = Machine.start ledger :=
      (congrArg Prod.snd ((run_ensure_bind_error refused).symm.trans failed)).symm
    rw [same]
    exact ⟨rfl, rfl⟩
  · have fits := room.resolve_left (Nat.not_lt.mpr covers)
    have accepted : (AnchorVault.withdraw user vault amount).run (Machine.start ledger) =
        (.ok (), _) := (AnchorVault.withdraw_eq_ok distinct).mpr ⟨covers, fits, rfl⟩
    rw [accepted] at failed
    cases failed

end Anchor

/-- Both handlers leave the balances alone on every error, except where the
Anchor handler has funds to pay out and the user's balance cannot take them. -/
theorem withdraw_intact_iff (find : FindProgramAddress) (programId : Address)
    (user vault : AccountView) (distinct : user.address ≠ vault.address) (amount : UInt64)
    (ledger : Ledger) :
    (∀ rest data, IntactOnError (processWithdraw find programId (user :: vault :: rest) data) user
        vault ledger) ∧
      IntactOnError (AnchorVault.withdraw user vault amount) user vault ledger ↔
    ledger.balances vault.address < amount.toNat ∨
      ledger.balances user.address + amount.toNat < 2 ^ 64 := by
  constructor
  · intro intact
    obtain ⟨_, anchorIntact⟩ := intact
    by_contra refused
    rw [not_or, Nat.not_lt, Nat.not_lt] at refused
    obtain ⟨covers, overflows⟩ := refused
    obtain ⟨_, vaultKept⟩ := anchorIntact _ _ (withdraw_overflow_run distinct covers overflows)
    rw [balances_setLamports, Function.update_self,
      UInt64.toNat_sub_of_le _ _ (UInt64.le_iff_toNat_le.mpr covers)] at vaultKept
    have userBound : ledger.balances user.address < 2 ^ 64 := UInt64.toNat_lt _
    have held : ledger.balances vault.address = (ledger vault.address).lamports.toNat := rfl
    omega
  · intro room
    refine ⟨?_, withdraw_intact distinct room⟩
    intro rest data
    exact intactOnError_of_atomic (processWithdraw_atomic find programId _ data) user vault ledger

def fullUserLedger : Ledger := fun a =>
  if a = Accounting.sampleUser.address then ⟨18446744073709551614, systemProgramId, []⟩
  else ⟨50, Accounting.sampleProgram, []⟩

/-- The user cannot take five lamports: the Anchor vault has lost them when the
handler stops, the Pinocchio vault has not. -/
theorem anchor_withdraw_not_intact :
    let user := Accounting.sampleUser
    let vault := Accounting.sampleVault
    let pinocchio := (processWithdraw sampleDerivation Accounting.sampleProgram [user, vault]
      (List.ofFn (u64Bytes 5))).run (Machine.start fullUserLedger)
    let anchor := (AnchorVault.withdraw user vault 5).run (Machine.start fullUserLedger)
    (pinocchio.1 = .error (.error .arithmeticOverflow) ∧
        pinocchio.2.ledger.balances vault.address = 50) ∧
      (anchor.1 = .error (.error (.custom 6001)) ∧ anchor.2.ledger.balances vault.address = 45) ∧
      ¬IntactOnError (AnchorVault.withdraw user vault 5) user vault fullUserLedger := by
  intro user vault pinocchio anchor
  have stops : anchor.1 = .error (.error (.custom 6001)) := by decide +kernel
  have debited : anchor.2.ledger.balances vault.address = 45 := by decide +kernel
  refine ⟨⟨by decide +kernel, by decide +kernel⟩, ⟨stops, debited⟩, ?_⟩
  intro intact
  obtain ⟨_, kept⟩ := intact _ _ (Exec.run_eq_of_fst stops)
  have held : fullUserLedger.balances vault.address = 50 := by decide +kernel
  have same : anchor.2.ledger.balances vault.address = 50 := kept.trans held
  omega

theorem withdraw_intact_underfunded :
    IntactOnError (AnchorVault.withdraw Accounting.sampleUser Accounting.sampleVault 51)
      Accounting.sampleUser Accounting.sampleVault fullUserLedger :=
  ((withdraw_intact_iff sampleDerivation Accounting.sampleProgram Accounting.sampleUser
    Accounting.sampleVault (by decide) 51 fullUserLedger).mpr (.inl (by decide +kernel))).2

end HopperBench.WithdrawFailure
