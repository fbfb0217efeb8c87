import HopperBench.Vault.VaultBank

/-!
# Runs of the vault programs

Both programs simulate the bank, so that a run of either gives the bank's
answers and the bank's numbers: the two cannot be told apart, each user's
lamports stay the user's, and what other users do in between makes no difference.
-/

set_option autoImplicit false

namespace HopperBench.VaultRuns

open LittleEndian CheckedWord HopperBench.Solana HopperBench.PinocchioVault
  HopperBench.WithdrawParity HopperBench.VaultContract HopperBench.VaultBank Transactions

inductive Framework where
  | pinocchio
  | anchor
deriving DecidableEq

def Framework.spec (ids : Framework → Address) (framework : Framework) : ProgramSpec where
  framework :=
    match framework with
    | pinocchio => "pinocchio"
    | anchor => "anchor"
  programId := ids framework

/-- What stands in front of the authority and the counter. -/
def Framework.header : Framework → List UInt8
  | pinocchio => []
  | anchor => AnchorVault.counterStateDiscriminator

def Framework.program (find : FindProgramAddress) (system : Callee)
    (generated : AnchorProgram.Generated) :
    Framework → Address → List AccountView → List UInt8 → Program Unit
  | pinocchio => PinocchioVault.processInstruction find system
  | anchor => AnchorProgram.processInstruction generated system

/-- One transaction of the runner on a vault program. -/
def vaultStep (find : FindProgramAddress) (system : Callee) (generated : AnchorProgram.Generated)
    (ids : Framework → Address) (framework : Framework) : Service.Step Ledger Action :=
  ledgerStep find (framework.spec ids) (framework.program find system generated)

theorem program_obeys {find : FindProgramAddress} {system : Callee}
    {generated : AnchorProgram.Generated} (lawful : generated.Lawful find)
    (documented : TransfersAsDocumented system) (ids : Framework → Address)
    (framework : Framework) :
    Obeys find (framework.spec ids) framework.header
      (framework.program find system generated) := by
  cases framework with
  | pinocchio => exact pinocchio_obeys find documented (ids .pinocchio)
  | anchor => exact anchor_obeys lawful documented (ids .anchor)

theorem vaultStep_simulates {find : FindProgramAddress} {system : Callee}
    {generated : AnchorProgram.Generated} (lawful : generated.Lawful find)
    (documented : TransfersAsDocumented system) {ids : Framework → Address}
    (framework : Framework) {users : Set Address}
    (apart : VaultsApart find (ids framework) users) :
    Service.Simulates (Represents find (framework.spec ids) framework.header users)
      (fun action => action.user ∈ users) (vaultStep find system generated ids framework)
      Bank.step :=
  simulates_bank (program_obeys lawful documented ids framework) apart

/-! ## Two users -/

theorem systemTransfer_documented : TransfersAsDocumented Accounting.systemTransfer := by
  intro ledger source destination amount after distinct _ _
  have decoded : u64OfBytes ((transferInstruction source destination amount).data.drop 4) =
      amount := by
    rw [transferInstruction, List.drop_left' (by simp), u64OfBytes_u64Bytes]
  have unmoved : ∀ n, ((ledger.setLamports source n) destination).lamports =
      (ledger destination).lamports := fun n => by rw [setLamports_other _ distinct.symm]
  simp only [Accounting.systemTransfer, transferInstruction] at decoded ⊢
  rw [decoded]
  by_cases covers : amount.toNat ≤ ledger.balances source
  · have debit : checkedSub (ledger source).lamports amount =
        some ((ledger source).lamports - amount) := if_pos covers
    simp only [debit, unmoved]
    by_cases room : ledger.balances destination + amount.toNat < 2 ^ 64
    · have credit : checkedAdd (ledger destination).lamports amount =
          some ((ledger destination).lamports + amount) := if_pos room
      simp only [credit, Except.ok.injEq]
      rw [and_iff_right ⟨covers, room⟩]
      exact eq_comm
    · have credit : checkedAdd (ledger destination).lamports amount = none := if_neg room
      simp only [credit, reduceCtorEq, false_iff]
      intro given
      exact room given.1.2
  · have debit : checkedSub (ledger source).lamports amount = none := if_neg covers
    simp only [debit, reduceCtorEq, false_iff]
    intro given
    exact covers given.1.1

def sampleIds : Framework → Address
  | .pinocchio => fun _ => 3
  | .anchor => fun _ => 4

def firstUser : Address := fun _ => 1

def secondUser : Address := fun _ => 2

/-- Both vaults carry the first user's counter. -/
def twoUsers (framework : Framework) : Ledger := fun a =>
  if a = firstUser ∨ a = secondUser then ⟨1000, systemProgramId, []⟩
  else ⟨50, sampleIds framework,
    framework.header ++ List.ofFn firstUser ++ List.ofFn (u64Bytes 7)⟩

def twoUsersBank : Bank := fun u => ⟨1000, 50, if u = firstUser then some 7 else none⟩

def twoUsersActions : List Action :=
  [⟨firstUser, true, .deposit 500⟩, ⟨secondUser, false, .deposit 500⟩,
    ⟨secondUser, true, .counterAccess⟩, ⟨firstUser, true, .counterAccess⟩,
    ⟨firstUser, true, .withdraw 200⟩, ⟨secondUser, true, .withdraw 51⟩,
    ⟨secondUser, true, .withdraw 50⟩]

theorem twoUsers_apart (programId : Address) :
    VaultsApart sampleDerivation programId {firstUser, secondUser} := by
  have derived : vaultAddress sampleDerivation programId firstUser = (fun _ => 101) ∧
      vaultAddress sampleDerivation programId secondUser = (fun _ => 102) := by
    have shifted : ∀ n : UInt8, vaultAddress sampleDerivation programId (fun _ => n) =
        fun _ => n + 100 := by
      intro n
      funext byte
      have read : (List.ofFn fun _ : Fin 32 => n).getD byte 0 = n := by
        rw [List.getD_eq_getElem?_getD, List.getElem?_ofFn, dif_pos byte.isLt]
        rfl
      exact congrArg (· + 100) read
    exact ⟨shifted 1, shifted 2⟩
  obtain ⟨first, second⟩ := derived
  refine ⟨?_, ?_⟩
  · intro u member w member' same
    rcases member with rfl | rfl <;> rcases member' with rfl | rfl
    · rfl
    · rw [first, second] at same
      exact absurd same (by decide)
    · rw [first, second] at same
      exact absurd same (by decide)
    · rfl
  · intro u member w member'
    rcases member with rfl | rfl <;> rcases member' with rfl | rfl
    · rw [first]
      decide
    · rw [second]
      decide
    · rw [first]
      decide
    · rw [second]
      decide

theorem twoUsers_represents (framework : Framework) :
    Represents sampleDerivation (framework.spec sampleIds) framework.header
      {firstUser, secondUser} (twoUsers framework) twoUsersBank := by
  refine ⟨⟨?_, ?_⟩, ?_⟩
  · rintro u (rfl | rfl) <;> exact ⟨rfl, rfl⟩
  · rintro u (rfl | rfl) <;> cases framework <;> decide +kernel
  · rintro u (rfl | rfl) <;> cases framework <;> decide +kernel

theorem twoUsers_listed : ∀ action ∈ twoUsersActions,
    action.user ∈ ({firstUser, secondUser} : Set Address) := by
  have listed : ∀ action ∈ twoUsersActions, action.user = firstUser ∨ action.user = secondUser := by
    decide
  exact listed

/-- Whoever sends what, in any order: from ledgers that represent one bank both
programs accept and refuse what the bank does, and end in ledgers that represent
the bank's end. -/
theorem programs_run_as_bank (find : FindProgramAddress) (system : Callee)
    (documented : TransfersAsDocumented system) (generated : AnchorProgram.Generated)
    (lawful : generated.Lawful find) (ids : Framework → Address) (users : Set Address)
    (apart : ∀ framework, VaultsApart find (ids framework) users) (bank : Bank)
    (ledgers : Framework → Ledger)
    (start : ∀ framework : Framework, Represents find (framework.spec ids) framework.header users
      (ledgers framework) bank)
    (actions : List Action) (byUsers : ∀ action ∈ actions, action.user ∈ users) :
    ∀ framework : Framework,
      Service.answers (vaultStep find system generated ids framework) (ledgers framework)
          actions = Service.answers Bank.step bank actions ∧
        Represents find (framework.spec ids) framework.header users
          (runAll (Service.after (vaultStep find system generated ids framework))
            (ledgers framework) actions)
          (runAll (Service.after Bank.step) bank actions) := by
  intro framework
  exact (vaultStep_simulates lawful documented framework (apart framework)).run actions
    (ledgers framework) bank byUsers (start framework)

theorem programs_run_as_bank_two_users :
    let answers := fun framework => Service.answers (vaultStep sampleDerivation
      Accounting.systemTransfer (AnchorProgram.checkedAnchor sampleDerivation) sampleIds framework)
        (twoUsers framework) twoUsersActions
    answers .pinocchio = [true, false, false, true, true, false, true] ∧
      answers .anchor = [true, false, false, true, true, false, true] := by
  have bankAnswers : Service.answers Bank.step twoUsersBank twoUsersActions =
      [true, false, false, true, true, false, true] := by decide +kernel
  have runs := programs_run_as_bank sampleDerivation Accounting.systemTransfer
    systemTransfer_documented (AnchorProgram.checkedAnchor sampleDerivation)
    (AnchorProgram.checkedAnchor_lawful sampleDerivation) sampleIds {firstUser, secondUser}
    (fun framework => twoUsers_apart (sampleIds framework)) twoUsersBank twoUsers
    twoUsers_represents twoUsersActions twoUsers_listed
  exact ⟨(runs .pinocchio).1.trans bankAnswers, (runs .anchor).1.trans bankAnswers⟩

/-! ## Accounts -/

def depositedBy (u : Address) (action : Action) : Nat :=
  if action.user = u then
    match action.operation with
    | .deposit amount => amount.toNat
    | _ => 0
  else 0

def withdrawnBy (u : Address) (action : Action) : Nat :=
  if action.user = u then
    match action.operation with
    | .withdraw amount => amount.toNat
    | _ => 0
  else 0

def countedBy (u : Address) (action : Action) : Nat :=
  if action.user = u ∧ action.operation = .counterAccess then 1 else 0

/-- The holdings after some deposits, withdraws and counter accesses. -/
structure Accounted (before after : Holdings) (deposits withdraws counts : Nat) : Prop where
  total : after.wallet + after.vault = before.wallet + before.vault
  vault : after.vault + withdraws = before.vault + deposits
  counter : after.counter = before.counter.map (· + counts)

theorem Accounted.refl (holdings : Holdings) : Accounted holdings holdings 0 0 0 :=
  ⟨rfl, rfl, by simp⟩

theorem Accounted.trans {a b c : Holdings} {d w n d' w' n' : Nat}
    (first : Accounted a b d w n) (second : Accounted b c d' w' n') :
    Accounted a c (d + d') (w + w') (n + n') := by
  obtain ⟨total, vault, counter⟩ := first
  obtain ⟨total', vault', counter'⟩ := second
  refine ⟨total'.trans total, by omega, ?_⟩
  rw [counter', counter, Option.map_map]
  congr 1
  funext value
  exact Nat.add_assoc value n n'

theorem serve_accounted {holdings next : Holdings} {u : Address} {operation : Operation}
    (served : holdings.serve operation = some next) :
    Accounted holdings next (depositedBy u ⟨u, true, operation⟩)
      (withdrawnBy u ⟨u, true, operation⟩) (countedBy u ⟨u, true, operation⟩) := by
  cases operation with
  | deposit amount =>
      simp only [Holdings.serve, Holdings.deposit] at served
      split at served
      case isTrue possible =>
        cases served
        refine ⟨?_, ?_, by simp [countedBy]⟩
        · have covers := possible.1
          change holdings.wallet - amount.toNat + (holdings.vault + amount.toNat) =
            holdings.wallet + holdings.vault
          omega
        · simp [depositedBy, withdrawnBy]
      case isFalse => cases served
  | withdraw amount =>
      simp only [Holdings.serve, Holdings.withdraw] at served
      split at served
      case isTrue possible =>
        cases served
        have covers := possible.1
        refine ⟨?_, ?_, by simp [countedBy]⟩
        · change holdings.wallet + amount.toNat + (holdings.vault - amount.toNat) =
            holdings.wallet + holdings.vault
          omega
        · simp only [depositedBy, withdrawnBy, if_true]
          omega
      case isFalse => cases served
  | authorize =>
      cases served
      simpa [depositedBy, withdrawnBy, countedBy] using Accounted.refl holdings
  | counterAccess =>
      simp only [Holdings.serve, Holdings.count] at served
      split at served
      case h_1 => cases served
      case h_2 n counter =>
        split at served
        case isTrue =>
          cases served
          exact ⟨rfl, rfl, by simp [counter, countedBy]⟩
        case isFalse => cases served

theorem after_step_other (bank : Bank) {action : Action} {u : Address} (other : action.user ≠ u) :
    Service.after Bank.step bank action u = bank u := by
  unfold Service.after Bank.step
  split
  · cases (bank action.user).serve action.operation with
    | none => rfl
    | some next => exact Function.update_of_ne (Ne.symm other) _ _
  · rfl

theorem after_step_own (bank : Bank) {action : Action} {u : Address} (own : action.user = u) :
    Service.after Bank.step bank action u =
      if action.signed then ((bank u).serve action.operation).getD (bank u) else bank u := by
  subst own
  unfold Service.after Bank.step
  split
  · cases (bank action.user).serve action.operation with
    | none => rfl
    | some next => exact Function.update_self action.user next bank
  · rfl

theorem step_isSome (bank : Bank) (action : Action) :
    (bank.step action).isSome =
      (action.signed && ((bank action.user).serve action.operation).isSome) := by
  unfold Bank.step
  cases action.signed with
  | false => rfl
  | true => simp

/-- The tallies of one user's accepted instructions. -/
def deposits (step : Service.Step Ledger Action) (u : Address) (ledger : Ledger)
    (actions : List Action) : Nat :=
  tally (Service.after step) (Service.ifAccepted step (depositedBy u)) ledger actions

def withdraws (step : Service.Step Ledger Action) (u : Address) (ledger : Ledger)
    (actions : List Action) : Nat :=
  tally (Service.after step) (Service.ifAccepted step (withdrawnBy u)) ledger actions

def counts (step : Service.Step Ledger Action) (u : Address) (ledger : Ledger)
    (actions : List Action) : Nat :=
  tally (Service.after step) (Service.ifAccepted step (countedBy u)) ledger actions

theorem step_accounted (bank : Bank) (action : Action) (u : Address) :
    Accounted (bank u) (Service.after Bank.step bank action u)
      (Service.ifAccepted Bank.step (depositedBy u) bank action)
      (Service.ifAccepted Bank.step (withdrawnBy u) bank action)
      (Service.ifAccepted Bank.step (countedBy u) bank action) := by
  obtain ⟨user, signed, operation⟩ := action
  by_cases own : user = u
  · subst own
    rw [after_step_own bank rfl]
    simp only [Service.ifAccepted, step_isSome]
    cases signed with
    | false => exact Accounted.refl (bank user)
    | true =>
        cases served : (bank user).serve operation with
        | none => exact Accounted.refl (bank user)
        | some next => exact serve_accounted served
  · have none : ∀ amount : Action → Nat, amount ⟨user, signed, operation⟩ = 0 →
        Service.ifAccepted Bank.step amount bank ⟨user, signed, operation⟩ = 0 := by
      intro amount zero
      rw [Service.ifAccepted, zero, ite_self]
    rw [after_step_other bank own, none _ (if_neg own), none _ (if_neg own),
      none _ (if_neg fun counted => own counted.1)]
    exact Accounted.refl (bank u)

theorem run_accounted (u : Address) : ∀ (actions : List Action) (bank : Bank),
    Accounted (bank u) (runAll (Service.after Bank.step) bank actions u)
      (tally (Service.after Bank.step) (Service.ifAccepted Bank.step (depositedBy u)) bank actions)
      (tally (Service.after Bank.step) (Service.ifAccepted Bank.step (withdrawnBy u)) bank actions)
      (tally (Service.after Bank.step) (Service.ifAccepted Bank.step (countedBy u)) bank
        actions) := by
  intro actions
  induction actions with
  | nil => intro bank; exact Accounted.refl (bank u)
  | cons action rest ih =>
      intro bank
      exact (step_accounted bank action u).trans (ih (Service.after Bank.step bank action))

section Programs

variable {find : FindProgramAddress} {system : Callee} {generated : AnchorProgram.Generated}
  {ids : Framework → Address} {users : Set Address} {framework : Framework} {ledger : Ledger}
  {actions : List Action}

theorem represents_holdings (serves : Serves find (framework.spec ids) users ledger) :
    Represents find (framework.spec ids) framework.header users ledger
      (holdingsOf find (framework.spec ids) framework.header ledger) :=
  ⟨serves, fun _ _ => rfl⟩

end Programs

/-- Over any run of either program a user's lamports stay the user's: wallet and
vault together hold what they held, the vault holds what the user's accepted
deposits put in and withdraws did not take out, and the counter has counted the
user's accepted counter accesses. -/
theorem holdings_accounted (find : FindProgramAddress) (system : Callee)
    (documented : TransfersAsDocumented system) (generated : AnchorProgram.Generated)
    (lawful : generated.Lawful find) (ids : Framework → Address) (framework : Framework)
    (users : Set Address) (apart : VaultsApart find (ids framework) users) (ledger : Ledger)
    (serves : Serves find (framework.spec ids) users ledger) (actions : List Action)
    (byUsers : ∀ action ∈ actions, action.user ∈ users) :
    let step := vaultStep find system generated ids framework
    let holdings := holdingsOf find (framework.spec ids) framework.header
    ∀ u ∈ users, Accounted (holdings ledger u)
      (holdings (runAll (Service.after step) ledger actions) u)
      (deposits step u ledger actions) (withdraws step u ledger actions)
      (counts step u ledger actions) := by
  intro step holdings u isUser
  have simulates : Service.Simulates _ _ step Bank.step :=
    vaultStep_simulates lawful documented framework apart
  have start := represents_holdings serves
  obtain ⟨_, final⟩ := simulates.run actions ledger _ byUsers start
  have reached : holdings (runAll (Service.after step) ledger actions) u = _ :=
    final.holdings u isUser
  rw [reached, deposits, withdraws, counts, simulates.tally _ actions ledger _ byUsers start,
    simulates.tally _ actions ledger _ byUsers start,
    simulates.tally _ actions ledger _ byUsers start]
  exact run_accounted u actions (holdings ledger)

/-- The same transactions through the Anchor program, from the first user's side. -/
def anchorSampleStep : Service.Step Ledger Action :=
  vaultStep sampleDerivation Accounting.systemTransfer
    (AnchorProgram.checkedAnchor sampleDerivation) sampleIds .anchor

def anchorSampleHoldings : Ledger → Bank :=
  holdingsOf sampleDerivation (Framework.anchor.spec sampleIds) Framework.anchor.header

theorem holdings_accounted_first_user :
    let reached := anchorSampleHoldings
      (runAll (Service.after anchorSampleStep) (twoUsers .anchor) twoUsersActions) firstUser
    reached.wallet + reached.vault = 1050 ∧ reached.vault + 200 = 50 + 500 ∧
      reached.counter = some 8 := by
  intro reached
  have start : anchorSampleHoldings (twoUsers .anchor) firstUser = ⟨1000, 50, some 7⟩ := by
    decide +kernel
  have deposited : deposits anchorSampleStep firstUser (twoUsers .anchor) twoUsersActions =
      500 := by decide +kernel
  have withdrew : withdraws anchorSampleStep firstUser (twoUsers .anchor) twoUsersActions =
      200 := by decide +kernel
  have counted : counts anchorSampleStep firstUser (twoUsers .anchor) twoUsersActions = 1 := by
    decide +kernel
  have accounted : Accounted (anchorSampleHoldings (twoUsers .anchor) firstUser) reached
      (deposits anchorSampleStep firstUser (twoUsers .anchor) twoUsersActions)
      (withdraws anchorSampleStep firstUser (twoUsers .anchor) twoUsersActions)
      (counts anchorSampleStep firstUser (twoUsers .anchor) twoUsersActions) :=
    holdings_accounted sampleDerivation Accounting.systemTransfer systemTransfer_documented
      (AnchorProgram.checkedAnchor sampleDerivation)
      (AnchorProgram.checkedAnchor_lawful sampleDerivation) sampleIds .anchor
      {firstUser, secondUser} (twoUsers_apart _) (twoUsers .anchor)
      (twoUsers_represents .anchor).serves twoUsersActions twoUsers_listed firstUser (.inl rfl)
  rw [start, deposited, withdrew, counted] at accounted
  exact ⟨accounted.total, accounted.vault, accounted.counter⟩

theorem bank_alone (u : Address) (actions : List Action) (bank : Bank) :
    Service.answersTo Bank.step (fun action => action.user = u) bank actions =
        Service.answersTo Bank.step (fun action => action.user = u) bank
          (actions.filter fun action => action.user = u) ∧
      runAll (Service.after Bank.step) bank actions u =
        runAll (Service.after Bank.step) bank (actions.filter fun action => action.user = u) u := by
  have anyAction : ∀ action ∈ actions, True := fun _ _ => trivial
  refine Service.run_alone (fun bank : Bank => bank u) ?_ ?_ actions bank bank anyAction rfl
  · intro bank action _ other
    exact after_step_other bank (of_decide_eq_false other)
  · intro left right action _ own alike
    have mine : action.user = u := of_decide_eq_true own
    rw [after_step_own left mine, after_step_own right mine, step_isSome, step_isSome, mine, alike]
    exact ⟨rfl, rfl⟩

/-- However the transactions of the users are interleaved, a user gets the
answers and ends with the holdings of the user's own transactions alone. -/
theorem users_do_not_interfere (find : FindProgramAddress) (system : Callee)
    (documented : TransfersAsDocumented system) (generated : AnchorProgram.Generated)
    (lawful : generated.Lawful find) (ids : Framework → Address) (framework : Framework)
    (users : Set Address) (apart : VaultsApart find (ids framework) users) (ledger : Ledger)
    (serves : Serves find (framework.spec ids) users ledger) (actions : List Action)
    (byUsers : ∀ action ∈ actions, action.user ∈ users) :
    let step := vaultStep find system generated ids framework
    let holdings := holdingsOf find (framework.spec ids) framework.header
    ∀ u ∈ users,
      let own := fun action : Action => decide (action.user = u)
      Service.answersTo step own ledger actions =
          Service.answersTo step own ledger (actions.filter own) ∧
        holdings (runAll (Service.after step) ledger actions) u =
          holdings (runAll (Service.after step) ledger (actions.filter own)) u := by
  intro step holdings u isUser own
  have simulates : Service.Simulates _ _ step Bank.step :=
    vaultStep_simulates lawful documented framework apart
  have start := represents_holdings serves
  have byUsers' : ∀ action ∈ actions.filter own, action.user ∈ users :=
    fun action member => byUsers action (List.mem_of_mem_filter member)
  obtain ⟨_, final⟩ := simulates.run actions ledger _ byUsers start
  obtain ⟨_, final'⟩ := simulates.run (actions.filter own) ledger _ byUsers' start
  have reached : holdings (runAll (Service.after step) ledger actions) u = _ :=
    final.holdings u isUser
  have reached' : holdings (runAll (Service.after step) ledger (actions.filter own)) u = _ :=
    final'.holdings u isUser
  rw [reached, reached', simulates.answersTo own actions ledger _ byUsers start,
    simulates.answersTo own (actions.filter own) ledger _ byUsers' start]
  exact bank_alone u actions (holdings ledger)

theorem users_do_not_interfere_first_user :
    let own := fun action : Action => decide (action.user = firstUser)
    Service.answersTo anchorSampleStep own (twoUsers .anchor) twoUsersActions =
        [true, true, true] ∧
      anchorSampleHoldings (runAll (Service.after anchorSampleStep) (twoUsers .anchor)
        twoUsersActions) firstUser = ⟨700, 350, some 8⟩ := by
  intro own
  have answered : Service.answersTo anchorSampleStep own (twoUsers .anchor)
      (twoUsersActions.filter own) = [true, true, true] := by decide +kernel
  have reached : anchorSampleHoldings (runAll (Service.after anchorSampleStep) (twoUsers .anchor)
      (twoUsersActions.filter own)) firstUser = ⟨700, 350, some 8⟩ := by decide +kernel
  have alone := users_do_not_interfere sampleDerivation Accounting.systemTransfer
    systemTransfer_documented (AnchorProgram.checkedAnchor sampleDerivation)
    (AnchorProgram.checkedAnchor_lawful sampleDerivation) sampleIds .anchor
    {firstUser, secondUser} (twoUsers_apart _) (twoUsers .anchor)
    (twoUsers_represents .anchor).serves twoUsersActions twoUsers_listed firstUser (.inl rfl)
  obtain ⟨answers, holdings⟩ := alone
  exact ⟨answers.trans answered, holdings.trans reached⟩

end HopperBench.VaultRuns
