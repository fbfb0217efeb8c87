import HopperBench.Library.Transactions
import HopperBench.Vault.PinocchioVault

/-!
# Vault accounts over whole runs

Whoever sends what, a user's vault holds what the user's own deposits put in
and withdraws did not take out.  Every instruction is first reduced to the move
of lamports it makes (`Effect`), and the accounts follow by induction over the
transactions.

The derived addresses are assumed distinct for the users considered, and not
to sign.  With `users` the set of all addresses that is injectivity of the
derivation.  Since there are only finitely many addresses, an injective
derivation reaches all of them and nobody would sign, so the statement is made
for any set of users that contains all signers.
-/

set_option autoImplicit false

namespace HopperBench.Accounting

open StoppingRun LittleEndian CheckedWord HopperBench.Solana HopperBench.PinocchioVault

abbrev Transaction := List AccountView × List UInt8

/-- A transfer through the system program fails or moves exactly its amount. -/
def TransfersExactly (system : Callee) : Prop :=
  ∀ ledger source destination amount after,
    system ledger (transferInstruction source destination amount) = .ok after →
      amount.toNat ≤ ledger.balances source ∧
        after.balances = Balances.move ledger.balances source destination amount.toNat

/-- Every signer is a user, and no user's vault signs. -/
def SignedByUsers (find : FindProgramAddress) (programId : Address) (users : Set Address)
    (transaction : Transaction) : Prop :=
  ∀ view ∈ transaction.1, view.isSigner = true → view.address ∈ users ∧
    ∀ u ∈ users, view.address ≠ vaultAddress find programId u

section Program

variable (find : FindProgramAddress) (system : Callee) (programId : Address)

def Succeeds (ledger : Ledger) (transaction : Transaction) : Prop :=
  ((processInstruction find system programId transaction.1 transaction.2).run
    (Machine.start ledger)).1 = .ok ()

instance (ledger : Ledger) (transaction : Transaction) :
    Decidable (Succeeds find system programId ledger transaction) :=
  inferInstanceAs (Decidable (_ = _))

def amountOf (payload : List UInt8) : Nat :=
  match parseAmount payload with
  | .ok amount => amount.toNat
  | .error _ => 0

/-- The amount of a successful instruction `disc` whose user is `u`, and zero
for every other transaction. -/
def movedBy (disc : UInt8) (u : Address) (ledger : Ledger) (transaction : Transaction) : Nat :=
  match transaction.1, transaction.2 with
  | user :: _, d :: payload =>
      if d = disc ∧ user.address = u ∧ Succeeds find system programId ledger transaction then
        amountOf payload
      else 0
  | _, _ => 0

/-- A withdraw that `u` signed and that succeeded. -/
def WithdrawSignedBy (u : Address) (ledger : Ledger) (transaction : Transaction) : Prop :=
  ∃ user rest payload, transaction = (user :: rest, 1 :: payload) ∧ user.address = u ∧
    user.isSigner = true ∧ Succeeds find system programId ledger transaction

/-! ## One transaction -/

/-- What one transaction does to the balances. -/
inductive Step (users : Set Address) (ledger : Ledger) (transaction : Transaction) :
    Ledger → Prop where
  | deposit {user : AccountView} {rest : List AccountView} {payload : List UInt8}
      {after : Ledger} (shape : transaction = (user :: rest, 0 :: payload))
      (isUser : user.address ∈ users)
      (apart : ∀ u ∈ users, user.address ≠ vaultAddress find programId u)
      (succeeds : Succeeds find system programId ledger transaction)
      (covers : amountOf payload ≤ ledger.balances user.address)
      (moved : after.balances = Balances.move ledger.balances user.address
        (vaultAddress find programId user.address) (amountOf payload)) :
      Step users ledger transaction after
  | withdraw {user : AccountView} {rest : List AccountView} {payload : List UInt8}
      {after : Ledger} (shape : transaction = (user :: rest, 1 :: payload))
      (isUser : user.address ∈ users) (signed : user.isSigner = true)
      (apart : ∀ u ∈ users, user.address ≠ vaultAddress find programId u)
      (succeeds : Succeeds find system programId ledger transaction)
      (covers : amountOf payload ≤ ledger.balances (vaultAddress find programId user.address))
      (moved : after.balances = Balances.move ledger.balances
        (vaultAddress find programId user.address) user.address (amountOf payload)) :
      Step users ledger transaction after
  | neutral {after : Ledger} (kept : after.balances = ledger.balances)
      (noDeposit : ∀ u, movedBy find system programId 0 u ledger transaction = 0)
      (noWithdraw : ∀ u, movedBy find system programId 1 u ledger transaction = 0) :
      Step users ledger transaction after

variable {find system programId}

theorem withdrew_moves {user vault : AccountView} {amount : UInt64} {before after : Machine}
    (effect : Withdrew find programId user vault amount before after)
    (distinct : vault.address ≠ user.address) :
    after.ledger.balances =
      Balances.move before.ledger.balances vault.address user.address amount.toNat := by
  have covers := effect.vaultCovers
  have room := effect.userRoom
  simp only [Ledger.balances] at covers room
  rw [effect.written, balances_setLamports, balances_setLamports,
    UInt64.toNat_sub_of_le _ _ (UInt64.le_iff_toNat_le.mpr covers), UInt64.toNat_add,
    Nat.mod_eq_of_lt room, Balances.move, Function.update_of_ne distinct.symm]
  rfl

theorem amountOf_eq {payload : List UInt8} {amount : UInt64}
    (parsed : parseAmount payload = .ok amount) : amountOf payload = amount.toNat := by
  rw [amountOf, parsed]

theorem movedBy_of_failed {ledger : Ledger} {transaction : Transaction} {disc : UInt8}
    (failed : ¬Succeeds find system programId ledger transaction) (u : Address) :
    movedBy find system programId disc u ledger transaction = 0 := by
  unfold movedBy
  split
  · exact if_neg fun counted => failed counted.2.2
  · rfl

theorem movedBy_of_other {ledger : Ledger} {transaction : Transaction} {disc : UInt8}
    (other : transaction.2.head? ≠ some disc) (u : Address) :
    movedBy find system programId disc u ledger transaction = 0 := by
  obtain ⟨accounts, data⟩ := transaction
  cases data with
  | nil =>
      cases accounts with
      | nil => rfl
      | cons user rest => rfl
  | cons d payload =>
      cases accounts with
      | nil => rfl
      | cons user rest =>
          have different : d ≠ disc := fun same => other (by rw [same]; rfl)
          exact if_neg fun counted => different counted.1

theorem movedBy_counted {ledger : Ledger} {user : AccountView} {rest : List AccountView}
    {disc : UInt8} {payload : List UInt8}
    (succeeds : Succeeds find system programId ledger (user :: rest, disc :: payload))
    (u : Address) :
    movedBy find system programId disc u ledger (user :: rest, disc :: payload) =
      if user.address = u then amountOf payload else 0 := by
  simp only [movedBy, true_and, succeeds, and_true]

theorem submit_step (transfers : TransfersExactly system) {users : Set Address}
    {transaction : Transaction} (signed : SignedByUsers find programId users transaction)
    (ledger : Ledger) :
    Step find system programId users ledger transaction
      (submit (processInstruction find system programId) ledger transaction) := by
  cases ended : (processInstruction find system programId transaction.1 transaction.2).run
      (Machine.start ledger) with
  | mk result m =>
      cases result with
      | error abort =>
          have failed : ¬Succeeds find system programId ledger transaction := by
            rw [Succeeds, ended]
            simp
          rw [submit_of_error ended]
          exact .neutral rfl (movedBy_of_failed failed) (movedBy_of_failed failed)
      | ok returned =>
          have succeeds : Succeeds find system programId ledger transaction := by
            rw [Succeeds, ended]
          rw [submit_of_ok ended]
          cases processInstruction_effect ended with
          | @deposited user vault rest payload amount accountsExact dataExact parsed effect =>
              obtain ⟨userSigned, _, derived⟩ := effect.authorized
              obtain ⟨isUser, apart⟩ := signed user (by rw [accountsExact]; simp) userSigned
              obtain ⟨covers, moved⟩ := transfers _ _ _ _ _ effect.transferred
              rw [← amountOf_eq parsed] at covers moved
              rw [← derived] at moved
              exact .deposit (Prod.ext accountsExact dataExact) isUser apart succeeds covers moved
          | @withdrew user vault rest payload amount accountsExact dataExact parsed effect =>
              obtain ⟨userSigned, _, derived⟩ := effect.authorized
              obtain ⟨isUser, apart⟩ := signed user (by rw [accountsExact]; simp) userSigned
              have distinct : vault.address ≠ user.address := by
                rw [← derived]
                exact (apart user.address isUser).symm
              have moved := withdrew_moves effect distinct
              have covers := effect.vaultCovers
              rw [← amountOf_eq parsed] at covers moved
              rw [← derived] at covers moved
              exact .withdraw (Prod.ext accountsExact dataExact) isUser userSigned apart succeeds
                covers moved
          | unmoved notDeposit notWithdraw kept =>
              exact .neutral kept (movedBy_of_other notDeposit) (movedBy_of_other notWithdraw)

section Step

variable {users : Set Address} {ledger after : Ledger} {transaction : Transaction}

theorem Step.total_eq (step : Step find system programId users ledger transaction after) :
    after.total = ledger.total := by
  cases step with
  | deposit _ _ _ _ covers moved =>
      rw [Ledger.total, moved, Balances.total_move covers, Ledger.total]
  | withdraw _ _ _ _ _ covers moved =>
      rw [Ledger.total, moved, Balances.total_move covers, Ledger.total]
  | neutral kept _ _ => rw [Ledger.total, kept, Ledger.total]

theorem Step.vault_moves (injective : Set.InjOn (vaultAddress find programId) users)
    (step : Step find system programId users ledger transaction after) {u : Address}
    (isUser : u ∈ users) :
    after.balances (vaultAddress find programId u) +
        movedBy find system programId 1 u ledger transaction =
      ledger.balances (vaultAddress find programId u) +
        movedBy find system programId 0 u ledger transaction := by
  cases step with
  | @deposit user rest payload _ shape sender apart succeeds _ moved =>
      subst shape
      have notWithdraw : movedBy find system programId 1 u ledger (user :: rest, 0 :: payload) =
          0 := movedBy_of_other (by simp) u
      rw [notWithdraw, movedBy_counted succeeds, moved]
      by_cases own : user.address = u
      · subst own
        rw [if_pos rfl, Balances.move_dst (apart user.address sender)]
        omega
      · have otherVault : vaultAddress find programId u ≠
            vaultAddress find programId user.address :=
          fun same => own (injective sender isUser same.symm)
        rw [if_neg own, Balances.move_other (apart u isUser).symm otherVault]
  | @withdraw user rest payload _ shape sender _ apart succeeds covers moved =>
      subst shape
      have notDeposit : movedBy find system programId 0 u ledger (user :: rest, 1 :: payload) =
          0 := movedBy_of_other (by simp) u
      rw [notDeposit, movedBy_counted succeeds, moved]
      by_cases own : user.address = u
      · subst own
        rw [if_pos rfl, Balances.move_src (apart user.address sender).symm]
        omega
      · have otherVault : vaultAddress find programId u ≠
            vaultAddress find programId user.address :=
          fun same => own (injective sender isUser same.symm)
        rw [if_neg own, Balances.move_other otherVault (apart u isUser).symm]
  | neutral kept noDeposit noWithdraw => rw [kept, noDeposit, noWithdraw]

theorem Step.decrease (injective : Set.InjOn (vaultAddress find programId) users)
    (step : Step find system programId users ledger transaction after) {u : Address}
    (isUser : u ∈ users)
    (less : after.balances (vaultAddress find programId u) <
      ledger.balances (vaultAddress find programId u)) :
    WithdrawSignedBy find system programId u ledger transaction := by
  have moves := step.vault_moves injective isUser
  cases step with
  | deposit shape _ _ _ _ _ =>
      have notWithdraw : movedBy find system programId 1 u ledger transaction = 0 :=
        movedBy_of_other (by rw [shape]; simp) u
      omega
  | @withdraw user rest payload _ shape sender signed _ succeeds _ _ =>
      by_cases own : user.address = u
      · exact ⟨user, rest, payload, shape, own, signed, succeeds⟩
      · have notCounted : movedBy find system programId 1 u ledger transaction = 0 := by
          subst shape
          rw [movedBy_counted succeeds, if_neg own]
        omega
  | neutral _ _ noWithdraw =>
      have none := noWithdraw u
      omega

end Step

end Program

/-- Over any run: lamports are conserved, every user's vault is its start plus
the user's deposits minus the user's withdraws, and it decreases only in a
withdraw the user signed. -/
theorem vault_accounting (find : FindProgramAddress) (system : Callee) (programId : Address)
    (transfers : TransfersExactly system) (users : Set Address)
    (injective : Set.InjOn (vaultAddress find programId) users) (ledger : Ledger)
    (transactions : List Transaction)
    (signed : ∀ transaction ∈ transactions, SignedByUsers find programId users transaction) :
    let execute := submit (processInstruction find system programId)
    let final := Transactions.runAll execute ledger transactions
    let deposits := fun u =>
      Transactions.tally execute (movedBy find system programId 0 u) ledger transactions
    let withdraws := fun u =>
      Transactions.tally execute (movedBy find system programId 1 u) ledger transactions
    final.total = ledger.total ∧
      (∀ u ∈ users, (final.balances (vaultAddress find programId u) : Int) =
        ledger.balances (vaultAddress find programId u) + deposits u - withdraws u) ∧
      ∀ done next later, transactions = done ++ next :: later →
        let before := Transactions.runAll execute ledger done
        ∀ u ∈ users, (execute before next).balances (vaultAddress find programId u) <
            before.balances (vaultAddress find programId u) →
          WithdrawSignedBy find system programId u before next := by
  intro execute final deposits withdraws
  refine ⟨?_, ?_, ?_⟩
  · have preserves : ∀ current transaction, SignedByUsers find programId users transaction →
        current.total = ledger.total → (execute current transaction).total = ledger.total := by
      intro current transaction allowed total
      rw [(submit_step transfers allowed current).total_eq, total]
    exact Transactions.runAll_invariant preserves transactions ledger signed rfl
  · intro u isUser
    have moves : ∀ current transaction, SignedByUsers find programId users transaction →
        (execute current transaction).balances (vaultAddress find programId u) +
            movedBy find system programId 1 u current transaction =
          current.balances (vaultAddress find programId u) +
            movedBy find system programId 0 u current transaction := by
      intro current transaction allowed
      exact (submit_step transfers allowed current).vault_moves injective isUser
    let holdings : Ledger → Nat := fun current =>
      current.balances (vaultAddress find programId u)
    have summed : holdings final + withdraws u = holdings ledger + deposits u :=
      Transactions.runAll_measure moves transactions ledger signed
    have exact : final.balances (vaultAddress find programId u) + withdraws u =
        ledger.balances (vaultAddress find programId u) + deposits u := summed
    omega
  · intro done next later split before u isUser less
    have allowed : SignedByUsers find programId users next := signed next (by rw [split]; simp)
    exact (submit_step transfers allowed before).decrease injective isUser less

/-! ### One user's deposit and withdraw -/

/-- A system program that knows no other instruction than the transfer. -/
def systemTransfer : Callee := fun ledger instruction =>
  match instruction.accounts with
  | [source, destination] =>
      let amount := u64OfBytes (instruction.data.drop 4)
      match checkedSub (ledger source.address).lamports amount with
      | none => .error (.error (.custom 1))
      | some left =>
          let debited := ledger.setLamports source.address left
          match checkedAdd (debited destination.address).lamports amount with
          | none => .error (.error .arithmeticOverflow)
          | some sum => .ok (debited.setLamports destination.address sum)
  | _ => .error (.error .invalidInstructionData)

theorem systemTransfer_exact : TransfersExactly systemTransfer := by
  intro ledger source destination amount after ok
  have decoded : u64OfBytes ((transferInstruction source destination amount).data.drop 4) =
      amount := by
    rw [transferInstruction, List.drop_left' (by simp), u64OfBytes_u64Bytes]
  simp only [systemTransfer, transferInstruction] at ok decoded
  rw [decoded] at ok
  cases debit : checkedSub (ledger source).lamports amount with
  | none => simp [debit] at ok
  | some left =>
      simp only [debit] at ok
      cases credit : checkedAdd ((ledger.setLamports source left) destination).lamports amount with
      | none => simp [credit] at ok
      | some sum =>
          simp only [credit, Except.ok.injEq] at ok
          rw [checkedSub_eq_some] at debit
          rw [checkedAdd_eq_some] at credit
          have leftExact : left.toNat = ledger.balances source - amount.toNat := by
            simp only [Ledger.balances]
            omega
          have sumExact : sum.toNat =
              (ledger.setLamports source left).balances destination + amount.toNat := credit
          refine ⟨by simp only [Ledger.balances]; omega, ?_⟩
          rw [← ok, balances_setLamports, sumExact, balances_setLamports, leftExact, Balances.move]

def sampleProgram : Address := fun _ => 3

def sampleUser : AccountView := ⟨fun _ => 1, true, true⟩

def sampleVault : AccountView := ⟨fun _ => 101, false, true⟩

def sampleLedger : Ledger := fun a =>
  if a = sampleUser.address then ⟨1000, systemProgramId, []⟩ else ⟨0, sampleProgram, []⟩

def sampleRun : List Transaction :=
  [([sampleUser, sampleVault, ⟨systemProgramId, false, false⟩], 0 :: List.ofFn (u64Bytes 500)),
    ([sampleUser, sampleVault], 1 :: List.ofFn (u64Bytes 200))]

theorem sampleRun_signed : ∀ transaction ∈ sampleRun,
    SignedByUsers sampleDerivation sampleProgram {sampleUser.address} transaction := by
  have derived : vaultAddress sampleDerivation sampleProgram sampleUser.address ≠
      sampleUser.address := by decide
  have onlyUser : ∀ transaction ∈ sampleRun, ∀ view ∈ transaction.1, view.isSigner = true →
      view.address = sampleUser.address := by decide
  intro transaction inRun view inList isSigner
  have isUser := onlyUser transaction inRun view inList isSigner
  refine ⟨isUser, ?_⟩
  intro u member
  rw [isUser, Set.mem_singleton_iff.mp member]
  exact derived.symm

theorem vault_accounting_sample :
    let execute := submit (processInstruction sampleDerivation systemTransfer sampleProgram)
    let final := Transactions.runAll execute sampleLedger sampleRun
    final.total = sampleLedger.total ∧
      (final.balances (vaultAddress sampleDerivation sampleProgram sampleUser.address) : Int) =
        0 + 500 - 200 := by
  intro execute final
  have deposits : Transactions.tally
      (submit (processInstruction sampleDerivation systemTransfer sampleProgram))
      (movedBy sampleDerivation systemTransfer sampleProgram 0 sampleUser.address) sampleLedger
      sampleRun = 500 := by
    decide +kernel
  have withdraws : Transactions.tally
      (submit (processInstruction sampleDerivation systemTransfer sampleProgram))
      (movedBy sampleDerivation systemTransfer sampleProgram 1 sampleUser.address) sampleLedger
      sampleRun = 200 := by
    decide +kernel
  have start : sampleLedger.balances
      (vaultAddress sampleDerivation sampleProgram sampleUser.address) = 0 := by
    decide +kernel
  obtain ⟨total, accounted, _⟩ := vault_accounting sampleDerivation systemTransfer sampleProgram
    systemTransfer_exact {sampleUser.address} (Set.injOn_singleton _ _) sampleLedger sampleRun
    sampleRun_signed
  have holdings := accounted sampleUser.address rfl
  beta_reduce at holdings
  rw [deposits, withdraws, start] at holdings
  exact ⟨total, holdings⟩

end HopperBench.Accounting
