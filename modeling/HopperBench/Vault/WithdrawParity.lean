import HopperBench.Vault.AnchorVault

/-!
# The two withdraws against each other

The vault runner sends the same withdraw to both programs, behind a one-byte or
an eight-byte discriminator.  The Pinocchio handler checks that its program
owns the vault; neither the constraints nor the handler of the Anchor program
do.
-/

set_option autoImplicit false

namespace HopperBench.WithdrawParity

open StoppingRun LittleEndian HopperBench.Solana HopperBench.PinocchioVault

/-! ## The instruction the runner builds -/

structure ProgramSpec where
  framework : String
  programId : Address

def isAnchor (spec : ProgramSpec) : Bool := spec.framework == "anchor"

def instructionData (spec : ProgramSpec) (discriminator : UInt8) : List UInt8 :=
  if isAnchor spec then (List.replicate 8 0).set 0 discriminator else [discriminator]

def withdrawInstruction (spec : ProgramSpec) (user : Address) (userIsSigner : Bool)
    (vault : Address) (amount : UInt64) : InstructionView where
  programId := spec.programId
  accounts := [⟨user, true, userIsSigner⟩, ⟨vault, true, false⟩]
  data := instructionData spec 1 ++ List.ofFn (u64Bytes amount)

section Parity

variable (find : FindProgramAddress) (system : Callee) (generated : AnchorVault.Generated)
  (pinocchioId anchorId : Address) (user vault : AccountView) (amount : UInt64)

/-- The Pinocchio program on the runner's withdraw, with the flags of the given
views. -/
def pinocchioRun : Program Unit :=
  processInstruction find system pinocchioId [user, vault]
    (withdrawInstruction ⟨"pinocchio", pinocchioId⟩ user.address user.isSigner vault.address
      amount).data

def anchorRun : Program Unit :=
  AnchorVault.processWithdraw generated anchorId [user, vault]
    (withdrawInstruction ⟨"anchor", anchorId⟩ user.address user.isSigner vault.address
      amount).data

/-- Both accept or neither does, and if both do they leave the same lamports.
Each program has its own ledger, since each is set up with its own vault. -/
def Parity (ledger anchorLedger : Ledger) : Prop :=
  let pinocchio := (pinocchioRun find system pinocchioId user vault amount).run
    (Machine.start ledger)
  let anchor := (anchorRun generated anchorId user vault amount).run (Machine.start anchorLedger)
  (pinocchio.1 = .ok () ↔ anchor.1 = .ok ()) ∧
    (pinocchio.1 = .ok () → anchor.1 = .ok () →
      pinocchio.2.ledger.balances user.address = anchor.2.ledger.balances user.address ∧
      pinocchio.2.ledger.balances vault.address = anchor.2.ledger.balances vault.address)

structure Payable (ledger : Ledger) : Prop where
  authorized : Authorized find pinocchioId user vault
  vaultWritable : vault.isWritable = true
  vaultCovers : amount.toNat ≤ ledger.balances vault.address
  userRoom : ledger.balances user.address + amount.toNat < 2 ^ 64

def paid (ledger : Ledger) : Machine :=
  ⟨(ledger.setLamports vault.address ((ledger vault.address).lamports - amount)).setLamports
    user.address ((ledger user.address).lamports + amount), [], [vault, user]⟩

variable {find system generated pinocchioId anchorId user vault amount} {ledger : Ledger}

theorem Payable.congr {ledger' : Ledger} (sameLamports : ledger'.balances = ledger.balances)
    (payable : Payable find pinocchioId user vault amount ledger) :
    Payable find pinocchioId user vault amount ledger' := by
  obtain ⟨authorized, writable, covers, room⟩ := payable
  rw [← sameLamports] at covers room
  exact ⟨authorized, writable, covers, room⟩

theorem paid_balances_congr {ledger' : Ledger} (sameLamports : ledger'.balances = ledger.balances) :
    (paid user vault amount ledger').ledger.balances =
      (paid user vault amount ledger).ledger.balances := by
  have read : ∀ a, (ledger' a).lamports = (ledger a).lamports := fun a =>
    UInt64.toNat_inj.mp (congrFun sameLamports a)
  simp only [paid, balances_setLamports, sameLamports, read]

theorem pinocchioRun_eq_ok {final : Machine} :
    (pinocchioRun find system pinocchioId user vault amount).run (Machine.start ledger) =
        (.ok (), final) ↔
      (Payable find pinocchioId user vault amount ledger ∧
        (ledger vault.address).owner = pinocchioId) ∧ final = paid user vault amount ledger := by
  have data : (withdrawInstruction ⟨"pinocchio", pinocchioId⟩ user.address user.isSigner
      vault.address amount).data = 1 :: List.ofFn (u64Bytes amount) := rfl
  have handled : (pinocchioRun find system pinocchioId user vault amount) =
      processWithdraw find pinocchioId [user, vault] (List.ofFn (u64Bytes amount)) := by
    rw [pinocchioRun, data]
    rfl
  rw [handled, processWithdraw_eq_ok]
  constructor
  · intro accepted
    obtain ⟨read, parsed, withdrew⟩ := accepted
    rw [parseAmount_encode] at parsed
    obtain rfl : amount = read := Except.ok.inj parsed
    obtain ⟨authorized, owned, writable, covers, room, written⟩ := withdrew
    exact ⟨⟨⟨authorized, writable, covers, room⟩, owned⟩, written⟩
  · intro conditions
    obtain ⟨⟨⟨authorized, writable, covers, room⟩, owned⟩, written⟩ := conditions
    exact ⟨amount, parseAmount_encode amount, authorized, owned, writable, covers, room, written⟩

theorem anchorRun_eq_ok (lawful : generated.Lawful find)
    (sameVault : vaultAddress find pinocchioId user.address =
      vaultAddress find anchorId user.address)
    (distinct : user.address ≠ vault.address) {final : Machine} :
    (anchorRun generated anchorId user vault amount).run (Machine.start ledger) =
        (.ok (), final) ↔
      Payable find pinocchioId user vault amount ledger ∧
        final = paid user vault amount ledger := by
  have data : (withdrawInstruction ⟨"anchor", anchorId⟩ user.address user.isSigner vault.address
      amount).data = AnchorVault.withdrawDiscriminator ++ List.ofFn (u64Bytes amount) := rfl
  rw [anchorRun, data, AnchorVault.processWithdraw]
  simp only [Exec.bind_eq_ok, Exec.lift_eq_ok, lawful.decodes, lawful.checks]
  constructor
  · intro accepted
    obtain ⟨read, _, ⟨decoded, same⟩, bound, _, ⟨⟨boundExact, authorized, writable⟩, same'⟩, moved⟩
      := accepted
    subst same same' boundExact
    obtain rfl : amount = read := Except.ok.inj decoded
    obtain ⟨covers, room, written⟩ := (AnchorVault.withdraw_eq_ok distinct).mp moved
    obtain ⟨signed, userWritable, derived⟩ := authorized
    rw [← sameVault] at derived
    exact ⟨⟨⟨signed, userWritable, derived⟩, writable, covers, room⟩, written⟩
  · intro conditions
    obtain ⟨⟨⟨signed, userWritable, derived⟩, writable, covers, room⟩, written⟩ := conditions
    rw [sameVault] at derived
    exact ⟨amount, _, ⟨rfl, rfl⟩, (user, vault), _,
      ⟨⟨rfl, ⟨signed, userWritable, derived⟩, writable⟩, rfl⟩,
      (AnchorVault.withdraw_eq_ok distinct).mpr ⟨covers, room, written⟩⟩

theorem pinocchio_accepts_iff :
    ((pinocchioRun find system pinocchioId user vault amount).run (Machine.start ledger)).1 =
        .ok () ↔
      Payable find pinocchioId user vault amount ledger ∧
        (ledger vault.address).owner = pinocchioId :=
  Exec.fst_eq_ok_iff pinocchioRun_eq_ok

theorem anchor_accepts_iff (lawful : generated.Lawful find)
    (sameVault : vaultAddress find pinocchioId user.address =
      vaultAddress find anchorId user.address)
    (distinct : user.address ≠ vault.address) {anchorLedger : Ledger}
    (sameLamports : anchorLedger.balances = ledger.balances) :
    ((anchorRun generated anchorId user vault amount).run (Machine.start anchorLedger)).1 =
        .ok () ↔
      Payable find pinocchioId user vault amount ledger := by
  constructor
  · intro accepted
    have run := (anchorRun_eq_ok lawful sameVault distinct).mp (Exec.run_eq_of_fst accepted)
    exact run.1.congr sameLamports.symm
  · intro payable
    rw [(anchorRun_eq_ok lawful sameVault distinct).mpr ⟨payable.congr sameLamports, rfl⟩]

end Parity

/-- The two withdraws agree exactly when the vault belongs to the program or one
of the conditions that both check fails.  The ledgers of the two programs hold
the same lamports; who owns what in the ledger of the Anchor program is left
open. -/
theorem withdraw_parity_iff (find : FindProgramAddress) (system : Callee)
    (generated : AnchorVault.Generated) (lawful : generated.Lawful find)
    (pinocchioId anchorId : Address) (user vault : AccountView)
    (sameVault : vaultAddress find pinocchioId user.address =
      vaultAddress find anchorId user.address)
    (distinct : user.address ≠ vault.address) (amount : UInt64) (ledger anchorLedger : Ledger)
    (sameLamports : anchorLedger.balances = ledger.balances) :
    Parity find system generated pinocchioId anchorId user vault amount ledger anchorLedger ↔
      (ledger vault.address).owner = pinocchioId ∨
        ¬Payable find pinocchioId user vault amount ledger := by
  simp only [Parity, pinocchio_accepts_iff,
    anchor_accepts_iff lawful sameVault distinct sameLamports]
  constructor
  · intro parity
    obtain ⟨alike, _⟩ := parity
    by_cases payable : Payable find pinocchioId user vault amount ledger
    · exact .inl (alike.mpr payable).2
    · exact .inr payable
  · intro condition
    refine ⟨?_, ?_⟩
    · constructor
      · intro accepted
        exact accepted.1
      · intro payable
        rcases condition with owned | refused
        · exact ⟨payable, owned⟩
        · exact absurd payable refused
    · intro accepted payable
      have anchorRun := (anchorRun_eq_ok lawful sameVault distinct).mpr
        ⟨payable.congr sameLamports, rfl⟩
      have left : (paid user vault amount anchorLedger).ledger.balances =
          (paid user vault amount ledger).ledger.balances := paid_balances_congr sameLamports
      rw [pinocchioRun_eq_ok.mpr ⟨accepted, rfl⟩, anchorRun]
      exact ⟨congrFun left.symm _, congrFun left.symm _⟩

def ledgerWithOwner (vaultOwner : Address) : Ledger := fun a =>
  if a = fun _ => 101 then ⟨50, vaultOwner, []⟩ else ⟨1000, systemProgramId, []⟩

theorem ledgerWithOwner_balances (a b : Address) :
    (ledgerWithOwner a).balances = (ledgerWithOwner b).balances := by
  funext x
  simp only [Ledger.balances, ledgerWithOwner]
  split <;> rfl

/-- A vault that the system program owns: the Anchor program withdraws from it,
the Pinocchio program does not, even for an amount of zero. -/
theorem foreign_vault_breaks_parity :
    let user : AccountView := ⟨fun _ => 1, true, true⟩
    let vault : AccountView := ⟨fun _ => 101, false, true⟩
    let ledger := ledgerWithOwner systemProgramId
    let system : Callee := fun l _ => .ok l
    let generated := AnchorVault.checkedAccounts sampleDerivation
    let pinocchio := fun amount => ((pinocchioRun sampleDerivation system (fun _ => 3) user vault
      amount).run (Machine.start ledger)).1
    let anchor := fun amount => ((anchorRun generated (fun _ => 4) user vault amount).run
      (Machine.start ledger)).1
    (pinocchio 0 = .error (.error .invalidAccountOwner) ∧ anchor 0 = .ok ()) ∧
      (pinocchio 5 = .error (.error .invalidAccountOwner) ∧ anchor 5 = .ok ()) ∧
      ¬Parity sampleDerivation system generated (fun _ => 3) (fun _ => 4) user vault 0 ledger
        ledger := by
  intro user vault ledger system generated pinocchio anchor
  have refused : pinocchio 0 = .error (.error .invalidAccountOwner) := by decide +kernel
  have accepted : anchor 0 = .ok () := by decide +kernel
  refine ⟨⟨refused, accepted⟩, ?_, ?_⟩
  · decide +kernel
  · intro parity
    have accepts : pinocchio 0 = .ok () := parity.1.mpr accepted
    rw [refused] at accepts
    cases accepts

theorem own_vault_keeps_parity :
    Parity sampleDerivation (fun l _ => .ok l) (AnchorVault.checkedAccounts sampleDerivation)
      (fun _ => 3) (fun _ => 4) ⟨fun _ => 1, true, true⟩ ⟨fun _ => 101, false, true⟩ 5
      (ledgerWithOwner fun _ => 3) (ledgerWithOwner fun _ => 4) :=
  (withdraw_parity_iff sampleDerivation _ _ (AnchorVault.checkedAccounts_lawful _) _ _ _ _ rfl
    (by decide) 5 _ _ (ledgerWithOwner_balances _ _)).mpr (.inl (by decide))

end HopperBench.WithdrawParity
