import HopperBench.Library.OrderedChecks
import HopperBench.Router.MockAmm

/-!
# The swap against its contract

The contract orders what can go wrong: the bytes, the accounts, the payout, then
the debit and the payout leg.  The program refuses with the error of the first
violated condition before it has written anything, and otherwise moves the
amount to the pool and the payout to the user and nothing else.
-/

set_option autoImplicit false

namespace HopperBench.SwapContract

open StoppingRun CheckedWord OrderedChecks HopperBench.Solana HopperBench.MockAmm

/-- `floor(amount * rate_num / rate_den)` -/
def payout (args : SwapArgs) : Nat :=
  args.amount.toNat * args.rateNum.toNat / args.rateDen.toNat

def dataConditions (data : List UInt8) : List (Bool × ProgramError) :=
  [(decide (data.length = 17), .invalidInstructionData),
    (decide (data.head? = some 0), .invalidInstructionData),
    (decide ((readArgs data).rateDen ≠ 0), .invalidInstructionData)]

def accountConditions (programId : Address) (pool user : AccountView) (args : SwapArgs)
    (ledger : Ledger) : List (Bool × ProgramError) :=
  let poolLamports := ledger.balances pool.address
  let userLamports := ledger.balances user.address
  [(decide ((ledger pool.address).owner = programId), .invalidAccountOwner),
    (decide (pool.isWritable = true ∧ user.isWritable = true), .invalidAccountData),
    (decide (payout args < 2 ^ 64), .arithmeticOverflow),
    (decide (args.amount.toNat ≤ userLamports), .insufficientFunds),
    (decide (poolLamports + args.amount.toNat < 2 ^ 64), .arithmeticOverflow),
    (decide (payout args ≤ poolLamports + args.amount.toNat), .insufficientFunds),
    (decide (userLamports - args.amount.toNat + payout args < 2 ^ 64), .arithmeticOverflow)]

def swapConditions (programId : Address) (accounts : List AccountView) (data : List UInt8)
    (ledger : Ledger) : List (Bool × ProgramError) :=
  dataConditions data ++
    match accounts with
    | pool :: user :: _ => accountConditions programId pool user (readArgs data) ledger
    | _ => [(false, .notEnoughAccountKeys)]

structure Settled (pool user : AccountView) (args : SwapArgs) (ledger : Ledger)
    (after : Machine) : Prop where
  userBalance : after.ledger.balances user.address + args.amount.toNat =
    ledger.balances user.address + payout args
  poolBalance : after.ledger.balances pool.address + payout args =
    ledger.balances pool.address + args.amount.toNat
  others : ∀ a, a ≠ pool.address → a ≠ user.address → after.ledger a = ledger a
  ownersAndData : ∀ a, (after.ledger a).owner = (ledger a).owner ∧
    (after.ledger a).data = (ledger a).data
  noCalls : after.cpis = []

section Contract

variable {programId : Address} {pool user : AccountView} {accounts rest : List AccountView}
  {data : List UInt8} {args : SwapArgs} {ledger : Ledger} {m : Machine}

theorem refuses_orFail {A B : Type} {opt : Option A} {e : ProgramError} {c : Prop} [Decidable c]
    {k : A → Program B} {conditions : List (Bool × ProgramError)} (same : c ↔ opt ≠ none)
    (passes : ∀ a, opt = some a → RefusesInOrder Abort.error (k a) m conditions) :
    RefusesInOrder Abort.error (orFail opt e >>= k) m ((decide c, e) :: conditions) := by
  refine refuses_lift ?_ ?_
  · intro holds
    obtain ⟨a, value⟩ := Option.ne_none_iff_exists'.mp (same.mp holds)
    exact ⟨a, okOr_eq_ok.mpr value, passes a value⟩
  · intro fails
    have absent : opt = none := not_not.mp (mt same.mpr fails)
    rw [absent]
    rfl

theorem checkedSub_ne_none {a b : UInt64} : checkedSub a b ≠ none ↔ b.toNat ≤ a.toNat := by
  rw [ne_eq, checkedSub_eq_none, Nat.not_lt]

theorem checkedAdd_ne_none {a b : UInt64} : checkedAdd a b ≠ none ↔ a.toNat + b.toNat < 2 ^ 64 := by
  rw [ne_eq, checkedAdd_eq_none, Nat.not_le]

theorem processSwap_refuses (nonzero : args.rateDen ≠ 0) :
    RefusesInOrder Abort.error (processSwap programId (pool :: user :: rest) args) m
      (accountConditions programId pool user args m.ledger) := by
  refine refuses_bind_ok (owner_eq_ok.mpr ⟨rfl, rfl⟩) (refuses_require fun _ => ?_)
  refine refuses_require fun _ => ?_
  -- the payout comes before either leg
  have payoutExact : swapOut args.amount args.rateNum args.rateDen =
      okOr (narrow (payout args)) .arithmeticOverflow := swapOut_eq args.amount nonzero
  rw [payoutExact]
  refine refuses_orFail (by rw [ne_eq, narrow_eq_none, Nat.not_le]) fun out narrowed => ?_
  have outExact : out.toNat = payout args := narrow_eq_some.mp narrowed
  refine refuses_bind_ok (lamports_eq_ok.mpr ⟨rfl, rfl⟩) ?_
  refine refuses_orFail checkedSub_ne_none.symm fun debited debit => ?_
  have debitExact := checkedSub_eq_some.mp debit
  refine refuses_bind_ok (lamports_eq_ok.mpr ⟨rfl, rfl⟩) ?_
  refine refuses_orFail checkedAdd_ne_none.symm fun credited credit => ?_
  have creditExact := checkedAdd_eq_some.mp credit
  refine refuses_orFail ?_ fun poolFinal _ => ?_
  · rw [checkedSub_ne_none, outExact, creditExact]
    exact Iff.rfl
  · refine refuses_orFail ?_ fun userFinal _ => refuses_nil
    rw [checkedAdd_ne_none, outExact]
    simp only [Ledger.balances]
    omega

theorem processInstruction_refuses :
    RefusesInOrder Abort.error (processInstruction programId accounts data) m
      (swapConditions programId accounts data m.ledger) := by
  have rejected : ¬(data.length = 17 ∧ data.head? = some 0 ∧ (readArgs data).rateDen ≠ 0) →
      (processInstruction programId accounts data).run m =
        (.error (.error .invalidInstructionData), m) := by
    intro malformed
    have parsed := parseSwap_eq data
    rw [if_neg malformed] at parsed
    exact Exec.run_lift_bind_error parsed
  refine refuses_cons (fun exact => ?_) fun fails => rejected fun accepted => fails accepted.1
  refine refuses_cons (fun disc => ?_) fun fails => rejected fun accepted => fails accepted.2.1
  refine refuses_cons (fun nonzero => ?_) fun fails => rejected fun accepted => fails accepted.2.2
  have parsed := parseSwap_eq data
  rw [if_pos ⟨exact, disc, nonzero⟩] at parsed
  refine refuses_bind_ok (Exec.lift_eq_ok.mpr ⟨parsed, rfl⟩) ?_
  cases accounts with
  | nil => exact refuses_cons (fun impossible : False => impossible.elim) fun _ => rfl
  | cons pool others =>
      cases others with
      | nil => exact refuses_cons (fun impossible : False => impossible.elim) fun _ => rfl
      | cons user rest => exact processSwap_refuses nonzero

theorem passes_of_conditions (parsed : parseSwap data = .ok args) (nonzero : args.rateDen ≠ 0)
    (holds : ∀ condition ∈ accountConditions programId pool user args ledger,
      condition.1 = true) :
    Passes programId pool user data ledger args (UInt64.ofNat (payout args)) := by
  simp only [accountConditions, List.forall_mem_cons, decide_eq_true_eq] at holds
  obtain ⟨owned, ⟨poolWritable, userWritable⟩, small, covers, fits, pays, room, _⟩ := holds
  have outExact := toNat_ofNat_of_fits small
  refine ⟨parsed, owned, poolWritable, userWritable, swapOut_eq_ok.mpr ⟨nonzero, outExact⟩, covers,
    fits, ?_, ?_⟩
  · rw [outExact]
    exact pays
  · rw [outExact]
    exact room

theorem settled_of_swapped {after : Machine} {out poolFinal userFinal : UInt64}
    (swapped : Swapped programId pool user args (Machine.start ledger) after out poolFinal
      userFinal) (distinct : pool.address ≠ user.address) : Settled pool user args ledger after := by
  have outExact : out.toNat = payout args := (swapOut_eq_ok.mp swapped.payout).2
  have poolFinalExact := swapped.poolFinal_eq
  have userFinalExact := swapped.userFinal_eq
  have balances := swapped.balances_eq
  rw [outExact] at poolFinalExact userFinalExact
  refine ⟨?_, ?_, ?_, ?_, ?_⟩
  · rw [balances, Function.update_self]
    exact userFinalExact
  · rw [balances, Function.update_of_ne distinct, Function.update_self]
    exact poolFinalExact
  · intro a notPool notUser
    rw [swapped.written]
    exact (setLamports_other _ notUser _).trans (setLamports_other _ notPool _)
  · intro a
    rw [swapped.written, owner_setLamports, owner_setLamports, data_setLamports, data_setLamports]
    exact ⟨rfl, rfl⟩
  · rw [swapped.written]
    rfl

theorem processInstruction_settles
    (distinct : ∀ pool user rest, accounts = pool :: user :: rest →
      pool.address ≠ user.address)
    (passes : firstViolated (swapConditions programId accounts data ledger) = none) :
    ∃ pool user rest after, accounts = pool :: user :: rest ∧
      (processInstruction programId accounts data).run (Machine.start ledger) = (.ok (), after) ∧
      Settled pool user (readArgs data) ledger after := by
  have holds := firstViolated_eq_none.mp passes
  have wellFormed : ∀ condition ∈ dataConditions data, condition.1 = true :=
    fun condition member => holds condition (List.mem_append_left _ member)
  have accountsHold := fun condition member =>
    holds condition (List.mem_append_right (dataConditions data) member)
  simp only [dataConditions, List.forall_mem_cons, decide_eq_true_eq] at wellFormed
  obtain ⟨exact, disc, nonzero, _⟩ := wellFormed
  have parsed := parseSwap_eq data
  rw [if_pos ⟨exact, disc, nonzero⟩] at parsed
  match accounts, distinct, accountsHold with
  | [], _, accountsHold => cases accountsHold _ (List.mem_singleton_self _)
  | [_], _, accountsHold => cases accountsHold _ (List.mem_singleton_self _)
  | pool :: user :: rest, distinct, accountsHold =>
      have passes := passes_of_conditions parsed nonzero accountsHold
      obtain ⟨after, poolFinal, userFinal, swapped⟩ : ∃ after poolFinal userFinal,
          Swapped programId pool user (readArgs data) (Machine.start ledger) after
            (UInt64.ofNat (payout (readArgs data))) poolFinal userFinal := passes.swapped
      exact ⟨pool, user, rest, after, rfl,
        processInstruction_eq_ok.mpr ⟨_, _, poolFinal, userFinal, parsed, swapped⟩,
        settled_of_swapped swapped (distinct pool user rest rfl)⟩

end Contract

/-- The swap refuses with the error of the contract's first violated condition
and changes nothing, or settles; the product never leaves `u128`. -/
theorem swap_meets_contract (programId : Address) (accounts : List AccountView)
    (data : List UInt8) (ledger : Ledger)
    (distinct : ∀ pool user rest, accounts = pool :: user :: rest →
      pool.address ≠ user.address) :
    let result := (processInstruction programId accounts data).run (Machine.start ledger)
    let violated := firstViolated (swapConditions programId accounts data ledger)
    (∀ e, violated = some e → result = (.error (.error e), Machine.start ledger)) ∧
      (violated = none → result.1 = .ok () ∧ ∃ pool user rest, accounts = pool :: user :: rest ∧
        Settled pool user (readArgs data) ledger result.2) ∧
      (readArgs data).amount.toNat * (readArgs data).rateNum.toNat < 2 ^ 128 := by
  intro result violated
  have refuses : RefusesInOrder Abort.error (processInstruction programId accounts data)
      (Machine.start ledger) (swapConditions programId accounts data ledger) :=
    processInstruction_refuses
  refine ⟨refuses, ?_, swapOut_product _ _⟩
  intro passes
  obtain ⟨pool, user, rest, after, shape, accepted, settled⟩ :=
    processInstruction_settles distinct passes
  have resultExact : result = (.ok (), after) := accepted
  rw [resultExact]
  exact ⟨rfl, pool, user, rest, shape, settled⟩

/-- A swap of 10 at rate 2/1 is accepted.  Of 300 at rate 2^32 - 1 with a user of
100, the missing funds are reported; at an amount whose payout leaves `u64`, the
overflow is. -/
theorem swap_meets_contract_sample :
    let program : Address := fun _ => 0xAA
    let pool : AccountView := ⟨fun _ => 1, false, true⟩
    let user : AccountView := ⟨fun _ => 2, false, true⟩
    let ledger : Ledger := fun a => ⟨if a = pool.address then 1000 else 100, program, []⟩
    let swap := fun rateNum amount =>
      (processInstruction program [pool, user] (RouteWire.encodeSwapWith 0 rateNum 1 amount)).run
        (Machine.start ledger)
    (swap 2 10).1 = .ok () ∧
      swap 4294967295 300 = (.error (.error .insufficientFunds), Machine.start ledger) ∧
      swap 4294967295 18446744073709551615 =
        (.error (.error .arithmeticOverflow), Machine.start ledger) := by
  intro program pool user ledger swap
  have meets := fun rateNum amount => swap_meets_contract program [pool, user]
    (RouteWire.encodeSwapWith 0 rateNum 1 amount) ledger (by
      intro _ _ _ shape
      cases shape
      decide)
  exact ⟨((meets 2 10).2.1 (by decide +kernel)).1,
    (meets 4294967295 300).1 _ (by decide +kernel),
    (meets 4294967295 18446744073709551615).1 _ (by decide +kernel)⟩

end HopperBench.SwapContract
