import HopperBench.Vault.Accounting

/-!
# Who may be written

A withdraw checks that its vault is writable and owned by the program before it
writes it; a deposit and the gate write nothing themselves.  The counter access
compares the derived address and the stored authority, and neither the flag nor
the owner, so what it writes is covered only when the caller passes a vault that
happens to be both.
-/

set_option autoImplicit false

namespace HopperBench.WriteDiscipline

open StoppingRun LittleEndian HopperBench.Solana HopperBench.PinocchioVault

/-- The views a program wrote through are flagged writable, and if the vault is
among them the program owns it. -/
structure Disciplined (programId : Address) (accounts : List AccountView) (ledger : Ledger)
    (writes : List AccountView) : Prop where
  writable : ∀ view ∈ writes, view.isWritable = true
  owned : ∀ vault, accounts[1]? = some vault → ∀ view ∈ writes, view.address = vault.address →
    (ledger vault.address).owner = programId

theorem disciplined_nil (programId : Address) (accounts : List AccountView) (ledger : Ledger) :
    Disciplined programId accounts ledger [] where
  writable := by simp
  owned := by simp

section Handlers

variable {find : FindProgramAddress} {system : Callee} {programId : Address}
  {accounts : List AccountView} {data : List UInt8} {ledger : Ledger} {final : Machine}

theorem invoke_keeps_writes (callee : Callee) (instruction : InstructionView)
    (writes : List AccountView) : (invoke callee instruction).Keeps fun m => m.writes = writes := by
  intro m kept
  rw [meets_invoke]
  exact ⟨fun _ _ => kept, fun _ _ => kept⟩

theorem processDeposit_keeps_writes (writes : List AccountView) :
    (processDeposit find system programId accounts data).Keeps fun m => m.writes = writes := by
  refine processDeposit_checksFirst.keeps ?_
  rintro _ ⟨instruction, rfl⟩
  exact invoke_keeps_writes system instruction writes

theorem disciplined_of_keeps {x : Program Unit}
    (keeps : x.Keeps fun m => m.writes = []) (ok : x.run (Machine.start ledger) = (.ok (), final)) :
    Disciplined programId accounts ledger final.writes := by
  have unwritten : final.writes = [] := keeps.kept_of_ok rfl ok
  rw [unwritten]
  exact disciplined_nil programId accounts ledger

theorem processWithdraw_disciplined
    (ok : (processWithdraw find programId accounts data).run (Machine.start ledger) =
      (.ok (), final)) : Disciplined programId accounts ledger final.writes := by
  match accounts, ok with
  | user :: vault :: rest, ok =>
      obtain ⟨amount, _, withdrew⟩ := processWithdraw_eq_ok.mp ok
      have written : final.writes = [vault, user] := by
        rw [withdrew.written]
        rfl
      rw [written]
      refine ⟨?_, ?_⟩
      · intro view member
        rcases List.mem_pair.mp member with rfl | rfl
        · exact withdrew.vaultWritable
        · exact withdrew.authorized.userWritable
      · intro second isSecond _ _ _
        obtain rfl : vault = second := Option.some.inj isSecond
        exact withdrew.vaultOwned

theorem processCounterAccess_disciplined_iff {user vault : AccountView} {rest : List AccountView}
    (ok : (processCounterAccess find programId (user :: vault :: rest)).run (Machine.start ledger) =
      (.ok (), final)) :
    Disciplined programId (user :: vault :: rest) ledger final.writes ↔
      vault.isWritable = true ∧ (ledger vault.address).owner = programId := by
  obtain ⟨_, written⟩ := processCounterAccess_eq_ok.mp ok
  have only : final.writes = [vault] := by
    rw [written]
    rfl
  rw [only]
  constructor
  · intro disciplined
    have member : vault ∈ [vault] := List.mem_singleton_self vault
    exact ⟨disciplined.writable vault member, disciplined.owned vault rfl vault member rfl⟩
  · intro checked
    obtain ⟨writable, owned⟩ := checked
    refine ⟨?_, ?_⟩
    · intro view member
      rw [List.mem_singleton.mp member]
      exact writable
    · intro second isSecond _ _ _
      obtain rfl : vault = second := Option.some.inj isSecond
      exact owned

end Handlers

/-- A vault that the counter access would write is writable and belongs to the
program. -/
def CounterVaultCovered (find : FindProgramAddress) (programId : Address)
    (accounts : List AccountView) (data : List UInt8) (ledger : Ledger) : Prop :=
  ∀ user vault rest, accounts = user :: vault :: rest → data.head? = some 3 →
    Authorized find programId user vault → CounterReady user (ledger vault.address).data →
    vault.isWritable = true ∧ (ledger vault.address).owner = programId

theorem write_discipline_iff (find : FindProgramAddress) (system : Callee) (programId : Address)
    (accounts : List AccountView) (data : List UInt8) (ledger : Ledger) :
    (∀ final, (processInstruction find system programId accounts data).run
        (Machine.start ledger) = (.ok (), final) →
      Disciplined programId accounts ledger final.writes) ↔
    CounterVaultCovered find programId accounts data ledger := by
  constructor
  · intro disciplined user vault rest accountsExact isCounter authorized ready
    subst accountsExact
    obtain ⟨payload, rfl⟩ := List.head?_eq_some_iff.mp isCounter
    have ok : (processCounterAccess find programId (user :: vault :: rest)).run
        (Machine.start ledger) = (.ok (), _) :=
      processCounterAccess_eq_ok.mpr ⟨⟨authorized, ready⟩, rfl⟩
    exact (processCounterAccess_disciplined_iff ok).mp (disciplined _ ok)
  · intro covered final ok
    cases data with
    | nil => cases ok
    | cons disc payload =>
        simp only [processInstruction] at ok
        split at ok
        case h_1 => exact disciplined_of_keeps (processDeposit_keeps_writes []) ok
        case h_2 => exact processWithdraw_disciplined ok
        case h_3 => exact disciplined_of_keeps (processAuthorize_reads.keeps _) ok
        case h_4 =>
          cases accounts with
          | nil => cases ok
          | cons user others =>
              cases others with
              | nil => cases ok
              | cons vault rest =>
                  obtain ⟨⟨authorized, ready⟩, _⟩ := processCounterAccess_eq_ok.mp ok
                  exact (processCounterAccess_disciplined_iff ok).mpr
                    (covered user vault rest rfl rfl authorized ready)
        case h_5 => cases ok

def counterBody : List UInt8 :=
  List.ofFn Accounting.sampleUser.address ++ List.ofFn (u64Bytes 7)

def counterLedger (vaultOwner : Address) : Ledger := fun a =>
  if a = Accounting.sampleVault.address then ⟨1, vaultOwner, counterBody⟩
  else ⟨1000, systemProgramId, []⟩

/-- The counter of a vault that was passed read-only is raised, and so is that
of a vault of another program. -/
theorem counter_access_undisciplined :
    let run := fun (vault : AccountView) (vaultOwner : Address) =>
      (processInstruction sampleDerivation (fun l _ => .ok l) Accounting.sampleProgram
        [Accounting.sampleUser, vault] [3]).run (Machine.start (counterLedger vaultOwner))
    let readOnly : AccountView := ⟨Accounting.sampleVault.address, false, false⟩
    (run readOnly Accounting.sampleProgram).1 = .ok () ∧
      ¬Disciplined Accounting.sampleProgram [Accounting.sampleUser, readOnly]
        (counterLedger Accounting.sampleProgram) (run readOnly Accounting.sampleProgram).2.writes ∧
      (run Accounting.sampleVault systemProgramId).1 = .ok () ∧
      ¬Disciplined Accounting.sampleProgram [Accounting.sampleUser, Accounting.sampleVault]
        (counterLedger systemProgramId) (run Accounting.sampleVault systemProgramId).2.writes := by
  intro run readOnly
  have readOnlyWritten : (run readOnly Accounting.sampleProgram).2.writes = [readOnly] := by
    decide +kernel
  have foreignWritten : (run Accounting.sampleVault systemProgramId).2.writes =
      [Accounting.sampleVault] := by
    decide +kernel
  have foreign : (counterLedger systemProgramId Accounting.sampleVault.address).owner ≠
      Accounting.sampleProgram := by
    decide +kernel
  refine ⟨by decide +kernel, ?_, by decide +kernel, ?_⟩
  · intro disciplined
    rw [readOnlyWritten] at disciplined
    have writable := disciplined.writable readOnly (List.mem_singleton_self _)
    cases writable
  · intro disciplined
    rw [foreignWritten] at disciplined
    exact foreign (disciplined.owned _ rfl _ (List.mem_singleton_self _) rfl)

end HopperBench.WriteDiscipline
