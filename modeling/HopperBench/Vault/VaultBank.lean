import HopperBench.Library.Service
import HopperBench.Vault.VaultContract

/-!
# The bank behind the vault programs

What the two programs are for: every user has a wallet, a vault and perhaps a
counter, and moves the user's own lamports between the first two.  The bank
knows no accounts, bytes or addresses.  Each program simulates it, so that over
any run of instructions, of any users in any order, both give the bank's answers
and leave the bank's numbers.
-/

set_option autoImplicit false

namespace HopperBench.VaultBank

open WordField HopperBench.Solana HopperBench.PinocchioVault HopperBench.WithdrawParity
  HopperBench.VaultContract

/-! ## The bank -/

structure Holdings where
  wallet : Nat
  vault : Nat
  counter : Option Nat
deriving DecidableEq

def Holdings.deposit (holdings : Holdings) (amount : Nat) : Option Holdings :=
  if amount ≤ holdings.wallet ∧ holdings.vault + amount < 2 ^ 64 then
    some { holdings with
      wallet := holdings.wallet - amount
      vault := holdings.vault + amount }
  else none

def Holdings.withdraw (holdings : Holdings) (amount : Nat) : Option Holdings :=
  if amount ≤ holdings.vault ∧ holdings.wallet + amount < 2 ^ 64 then
    some { holdings with
      wallet := holdings.wallet + amount
      vault := holdings.vault - amount }
  else none

def Holdings.count (holdings : Holdings) : Option Holdings :=
  match holdings.counter with
  | none => none
  | some n => if n + 1 < 2 ^ 64 then some { holdings with counter := some (n + 1) } else none

def Holdings.serve (holdings : Holdings) : Operation → Option Holdings
  | .deposit amount => holdings.deposit amount.toNat
  | .withdraw amount => holdings.withdraw amount.toNat
  | .authorize => some holdings
  | .counterAccess => holdings.count

abbrev Bank := Address → Holdings

/-- Only what a user signed is served, and it touches the user's holdings. -/
def Bank.step : Service.Step Bank Action := fun bank action =>
  if action.signed then
    ((bank action.user).serve action.operation).map (Function.update bank action.user)
  else none

/-! ## A ledger that represents a bank -/

/-- One transaction of a program, from the ledger's side. -/
def ledgerStep (find : FindProgramAddress) (spec : ProgramSpec)
    (program : Address → List AccountView → List UInt8 → Program Unit) :
    Service.Step Ledger Action := fun ledger action =>
  match calleeOf program ledger (instructionOf find spec action) with
  | .ok after => some after
  | .error _ => none

structure VaultsApart (find : FindProgramAddress) (programId : Address) (users : Set Address) :
    Prop where
  injective : Set.InjOn (vaultAddress find programId) users
  outside : ∀ u ∈ users, ∀ w ∈ users, u ≠ vaultAddress find programId w

def holdingsOf (find : FindProgramAddress) (spec : ProgramSpec) (header : List UInt8)
    (ledger : Ledger) : Bank := fun u =>
  let vault := vaultAddress find spec.programId u
  ⟨ledger.balances u, ledger.balances vault, counterOf header u (ledger vault).data⟩

/-- The users are plain accounts and the program owns their vaults. -/
structure Serves (find : FindProgramAddress) (spec : ProgramSpec) (users : Set Address)
    (ledger : Ledger) : Prop where
  plain : ∀ u ∈ users, (ledger u).owner = systemProgramId ∧ (ledger u).data = []
  owned : ∀ u ∈ users, (ledger (vaultAddress find spec.programId u)).owner = spec.programId

structure Represents (find : FindProgramAddress) (spec : ProgramSpec) (header : List UInt8)
    (users : Set Address) (ledger : Ledger) (bank : Bank) : Prop where
  serves : Serves find spec users ledger
  holdings : ∀ u ∈ users, holdingsOf find spec header ledger u = bank u

theorem ledgerStep_eq_some {find : FindProgramAddress} {spec : ProgramSpec}
    {program : Address → List AccountView → List UInt8 → Program Unit} {ledger after : Ledger}
    {action : Action} : ledgerStep find spec program ledger action = some after ↔
      calleeOf program ledger (instructionOf find spec action) = .ok after := by
  unfold ledgerStep
  cases calleeOf program ledger (instructionOf find spec action) <;> simp

theorem ledgerStep_eq_none {find : FindProgramAddress} {spec : ProgramSpec}
    {program : Address → List AccountView → List UInt8 → Program Unit} {ledger : Ledger}
    {action : Action}
    (refused : ∀ after, calleeOf program ledger (instructionOf find spec action) ≠ .ok after) :
    ledgerStep find spec program ledger action = none := by
  cases answer : ledgerStep find spec program ledger action with
  | none => rfl
  | some after => exact absurd (ledgerStep_eq_some.mp answer) (refused after)

/-! ## What the writes keep -/

theorem transferred_balances {ledger : Ledger} {source destination : Address} {amount : UInt64}
    (distinct : source ≠ destination) (covers : amount.toNat ≤ ledger.balances source)
    (room : ledger.balances destination + amount.toNat < 2 ^ 64) :
    (transferred ledger source destination amount).balances =
      Balances.move ledger.balances source destination amount.toNat := by
  simp only [Ledger.balances] at covers room
  rw [transferred, balances_setLamports, balances_setLamports,
    UInt64.toNat_sub_of_le _ _ (UInt64.le_iff_toNat_le.mpr covers), UInt64.toNat_add,
    Nat.mod_eq_of_lt room, Balances.move, Function.update_of_ne distinct.symm]
  rfl

theorem counterOf_countedData {header : List UInt8} {user : Address} {data : List UInt8} {n : Nat}
    (counts : counterOf header user data = some n) (room : n + 1 < 2 ^ 64) :
    counterOf header user (countedData header data) = some (n + 1) := by
  obtain ⟨⟨begins, long, authority⟩, _⟩ := counterOf_room.mp ⟨n, counts, room⟩
  have value : (wordAt (header.length + 32) data).toNat = n := by
    rw [counterOf, if_pos ⟨begins, long, authority⟩] at counts
    exact Option.some.inj counts
  have inside : header.length + 32 + 8 ≤ data.length := long
  have front : (countedData header data).take (header.length + 32) =
      data.take (header.length + 32) := take_setWordAt inside
  have begins' : (countedData header data).take header.length = header := by
    have cut : ∀ bytes : List UInt8, bytes.take header.length =
        (bytes.take (header.length + 32)).take header.length := by
      intro bytes
      rw [List.take_take, Nat.min_eq_left (Nat.le_add_right _ _)]
    rw [cut, front, ← cut, begins]
  have authority' : ((countedData header data).drop header.length).take 32 = List.ofFn user := by
    have cut : ∀ bytes : List UInt8, (bytes.drop header.length).take 32 =
        (bytes.take (header.length + 32)).drop header.length := by
      intro bytes
      rw [List.drop_take, Nat.add_sub_cancel_left]
    rw [cut, front, ← cut, authority]
  have long' : header.length + 40 ≤ (countedData header data).length := by
    rw [countedData, length_setWordAt inside]
    exact long
  rw [counterOf, if_pos ⟨begins', long', authority'⟩, countedData, wordAt_setWordAt inside,
    UInt64.toNat_add, value]
  exact congrArg some (Nat.mod_eq_of_lt room)

section Representation

variable {find : FindProgramAddress} {spec : ProgramSpec} {header : List UInt8}
  {users : Set Address} {ledger after : Ledger} {bank : Bank} {user : Address}

theorem Represents.updated (represents : Represents find spec header users ledger bank)
    (serves : Serves find spec users after) {new : Holdings}
    (own : holdingsOf find spec header after user = new)
    (others : ∀ u ∈ users, u ≠ user →
      holdingsOf find spec header after u = holdingsOf find spec header ledger u) :
    Represents find spec header users after (Function.update bank user new) := by
  refine ⟨serves, ?_⟩
  intro u member
  by_cases same : u = user
  · rw [same, own, Function.update_self]
  · rw [others u member same, Function.update_of_ne same, represents.holdings u member]

theorem Serves.transferred (serves : Serves find spec users ledger) (source destination : Address)
    (amount : UInt64) :
    Serves find spec users (VaultContract.transferred ledger source destination amount) := by
  refine ⟨?_, ?_⟩
  · intro u member
    rw [VaultContract.transferred, owner_setLamports, owner_setLamports, data_setLamports,
      data_setLamports]
    exact serves.plain u member
  · intro u member
    rw [VaultContract.transferred, owner_setLamports, owner_setLamports]
    exact serves.owned u member

theorem holdingsOf_transferred {source destination : Address} {amount : UInt64}
    (distinct : source ≠ destination) (covers : amount.toNat ≤ ledger.balances source)
    (room : ledger.balances destination + amount.toNat < 2 ^ 64) (u : Address) :
    holdingsOf find spec header (transferred ledger source destination amount) u =
      ⟨Balances.move ledger.balances source destination amount.toNat u,
        Balances.move ledger.balances source destination amount.toNat
          (vaultAddress find spec.programId u),
        (holdingsOf find spec header ledger u).counter⟩ := by
  rw [holdingsOf, transferred_balances distinct covers room, transferred, data_setLamports,
    data_setLamports]
  rfl

theorem Represents.deposited (represents : Represents find spec header users ledger bank)
    (apart : VaultsApart find spec.programId users) (isUser : user ∈ users) {amount : UInt64}
    (covers : amount.toNat ≤ ledger.balances user)
    (room : ledger.balances (vaultAddress find spec.programId user) + amount.toNat < 2 ^ 64) :
    Represents find spec header users
      (transferred ledger user (vaultAddress find spec.programId user) amount)
      (Function.update bank user ⟨(bank user).wallet - amount.toNat,
        (bank user).vault + amount.toNat, (bank user).counter⟩) := by
  have distinct := apart.outside user isUser user isUser
  apply represents.updated (represents.serves.transferred _ _ _)
  · rw [holdingsOf_transferred distinct covers room, Balances.move_src distinct,
      Balances.move_dst distinct, ← represents.holdings user isUser]
    rfl
  · intro u member other
    have otherVault := fun same => other (apart.injective member isUser same)
    rw [holdingsOf_transferred distinct covers room,
      Balances.move_other other (apart.outside u member user isUser),
      Balances.move_other (apart.outside user isUser u member).symm otherVault]
    rfl

theorem Represents.withdrawn (represents : Represents find spec header users ledger bank)
    (apart : VaultsApart find spec.programId users) (isUser : user ∈ users) {amount : UInt64}
    (covers : amount.toNat ≤ ledger.balances (vaultAddress find spec.programId user))
    (room : ledger.balances user + amount.toNat < 2 ^ 64) :
    Represents find spec header users
      (transferred ledger (vaultAddress find spec.programId user) user amount)
      (Function.update bank user ⟨(bank user).wallet + amount.toNat,
        (bank user).vault - amount.toNat, (bank user).counter⟩) := by
  have distinct := (apart.outside user isUser user isUser).symm
  apply represents.updated (represents.serves.transferred _ _ _)
  · rw [holdingsOf_transferred distinct covers room, Balances.move_src distinct,
      Balances.move_dst distinct, ← represents.holdings user isUser]
    rfl
  · intro u member other
    have otherVault := fun same => other (apart.injective member isUser same)
    rw [holdingsOf_transferred distinct covers room,
      Balances.move_other (apart.outside u member user isUser) other,
      Balances.move_other otherVault (apart.outside user isUser u member).symm]
    rfl

theorem Represents.counted (represents : Represents find spec header users ledger bank)
    (apart : VaultsApart find spec.programId users) (isUser : user ∈ users) {n : Nat}
    (counts : (bank user).counter = some n) (room : n + 1 < 2 ^ 64) :
    Represents find spec header users
      (ledger.setData (vaultAddress find spec.programId user)
        (countedData header (ledger (vaultAddress find spec.programId user)).data))
      (Function.update bank user ⟨(bank user).wallet, (bank user).vault, some (n + 1)⟩) := by
  have before : counterOf header user (ledger (vaultAddress find spec.programId user)).data =
      some n := by
    rw [← counts, ← represents.holdings user isUser, holdingsOf]
  apply represents.updated
  · refine ⟨?_, ?_⟩
    · intro u member
      rw [setData_other _ (apart.outside u member user isUser)]
      exact represents.serves.plain u member
    · intro u member
      rw [owner_setData]
      exact represents.serves.owned u member
  · rw [holdingsOf, balances_setData, data_setData, counterOf_countedData before room,
      ← represents.holdings user isUser]
    rfl
  · intro u member other
    have otherVault := fun same => other (apart.injective member isUser same)
    rw [holdingsOf, balances_setData, setData_other _ otherVault]
    rfl

end Representation

section Simulation

variable {find : FindProgramAddress} {spec : ProgramSpec} {header : List UInt8}
  {program : Address → List AccountView → List UInt8 → Program Unit} {users : Set Address}
  {ledger : Ledger} {bank : Bank} {action : Action}

/-- A program and a bank that ask for the same and stay related. -/
theorem simulated {possible : Prop} [Decidable possible] {final : Ledger} {new : Holdings}
    (answer : ∀ after, calleeOf program ledger (instructionOf find spec action) = .ok after ↔
      possible ∧ after = final)
    (signed : action.signed = true)
    (served : (bank action.user).serve action.operation = if possible then some new else none)
    (kept : possible →
      Represents find spec header users final (Function.update bank action.user new)) :
    (ledgerStep find spec program ledger action = none ∧ bank.step action = none) ∨
      ∃ ledger' bank', ledgerStep find spec program ledger action = some ledger' ∧
        bank.step action = some bank' ∧ Represents find spec header users ledger' bank' := by
  by_cases holds : possible
  · refine .inr ⟨final, _, ledgerStep_eq_some.mpr ((answer final).mpr ⟨holds, rfl⟩), ?_,
      kept holds⟩
    rw [Bank.step, if_pos signed, served, if_pos holds, Option.map_some]
  · refine .inl ⟨ledgerStep_eq_none fun after accepted => holds ((answer after).mp accepted).1, ?_⟩
    rw [Bank.step, if_pos signed, served, if_neg holds, Option.map_none]

theorem answer_of_counter (obeys : Obeys find spec header program) {user : Address}
    (owned : (ledger (vaultAddress find spec.programId user)).owner = spec.programId) {n : Nat}
    (counts : counterOf header user (ledger (vaultAddress find spec.programId user)).data =
      some n) (after : Ledger) :
    calleeOf program ledger (instructionOf find spec ⟨user, true, .counterAccess⟩) = .ok after ↔
      n + 1 < 2 ^ 64 ∧ after = ledger.setData (vaultAddress find spec.programId user)
        (countedData header (ledger (vaultAddress find spec.programId user)).data) := by
  rw [obeys.counterAccess ledger user after owned, counts]
  constructor
  · intro given
    obtain ⟨⟨m, same, room⟩, written⟩ := given
    rw [Option.some.inj same]
    exact ⟨room, written⟩
  · intro given
    obtain ⟨room, written⟩ := given
    exact ⟨⟨n, rfl, room⟩, written⟩

theorem simulates_bank (obeys : Obeys find spec header program)
    (apart : VaultsApart find spec.programId users) :
    Service.Simulates (Represents find spec header users) (fun action => action.user ∈ users)
      (ledgerStep find spec program) Bank.step := by
  intro ledger bank action isUser represents
  obtain ⟨user, signed, operation⟩ := action
  have distinct := apart.outside user isUser user isUser
  have owned := represents.serves.owned user isUser
  have holdings : holdingsOf find spec header ledger user = bank user :=
    represents.holdings user isUser
  cases signed with
  | false =>
      exact .inl ⟨ledgerStep_eq_none fun after => obeys.unsigned ledger _ after rfl, rfl⟩
  | true =>
      cases operation with
      | deposit amount =>
          obtain ⟨plain, empty⟩ := represents.serves.plain user isUser
          refine simulated (fun after => obeys.deposit ledger user amount after distinct plain
            empty) rfl ?_ fun possible => represents.deposited apart isUser possible.1 possible.2
          rw [← holdings]
          rfl
      | withdraw amount =>
          refine simulated (fun after => obeys.withdraw ledger user amount after distinct owned)
            rfl ?_ fun possible => represents.withdrawn apart isUser possible.1 possible.2
          rw [← holdings]
          rfl
      | authorize =>
          have accepted := (obeys.authorize ledger user ledger).mpr rfl
          refine .inr ⟨ledger, bank, ledgerStep_eq_some.mpr accepted, ?_, represents⟩
          exact congrArg some (Function.update_eq_self user bank)
      | counterAccess =>
          have counter : counterOf header user
              (ledger (vaultAddress find spec.programId user)).data = (bank user).counter := by
            rw [← holdings, holdingsOf]
          cases known : (bank user).counter with
          | none =>
              rw [known] at counter
              refine .inl ⟨ledgerStep_eq_none ?_, ?_⟩
              · intro after accepted
                obtain ⟨⟨n, counts, _⟩, _⟩ :=
                  (obeys.counterAccess ledger user after owned).mp accepted
                rw [counter] at counts
                cases counts
              · rw [Bank.step, if_pos rfl, Holdings.serve, Holdings.count, known]
                rfl
          | some n =>
              rw [known] at counter
              refine simulated (answer_of_counter obeys owned counter) rfl ?_
                fun room => represents.counted apart isUser known room
              rw [Holdings.serve, Holdings.count, known]

end Simulation

end HopperBench.VaultBank
