import HopperBench.Router.MockAmm
import HopperBench.Router.MeasuredSwap

/-!
# A measured swap over the real venue

The callee is the swap program itself, which commits its writes exactly when it
returns `Ok`.  A measured swap over it succeeds when the leg fits the balances
before it, and the measured output is then the venue's payout.
-/

set_option autoImplicit false

namespace HopperBench.Venue

open StoppingRun CheckedWord HopperBench.Solana HopperBench.RouteWire HopperBench.MeasuredSwap

def venueId : Address := fun _ => 0xAA

def venue : Callee := calleeOf MockAmm.processInstruction

def swapCall (pool user : Address) (rate : UInt32 × UInt32) (amount : UInt64) : InstructionView :=
  swapInstruction venueId pool user (encodeSwapWith 0 rate.1 rate.2 amount)

def leg (pool : Address) (amount out : UInt64) : Exchanges.Leg Address :=
  ⟨pool, amount.toNat, out.toNat⟩

@[simp] theorem leg_paid (pool : Address) (amount out : UInt64) :
    (leg pool amount out).paid = amount.toNat := rfl

@[simp] theorem leg_received (pool : Address) (amount out : UInt64) :
    (leg pool amount out).received = out.toNat := rfl

@[simp] theorem leg_pool (pool : Address) (amount out : UInt64) :
    (leg pool amount out).pool = pool := rfl

/-- The ledger a swap between two different accounts leaves. -/
def settled (ledger : Ledger) (pool user : Address) (amount out : UInt64) : Ledger :=
  (ledger.setLamports pool
    (UInt64.ofNat (ledger.balances pool + amount.toNat - out.toNat))).setLamports user
    (UInt64.ofNat (ledger.balances user - amount.toNat + out.toNat))

@[simp] theorem settled_owner (ledger : Ledger) (pool user a : Address) (amount out : UInt64) :
    (settled ledger pool user amount out a).owner = (ledger a).owner := by
  simp [settled]

@[simp] theorem settled_data (ledger : Ledger) (pool user a : Address) (amount out : UInt64) :
    (settled ledger pool user amount out a).data = (ledger a).data := by
  simp [settled]

structure Admits (ledger : Ledger) (pool user : Address) (amount out : UInt64) : Prop where
  poolOwned : (ledger pool).owner = venueId
  userCovers : amount.toNat ≤ ledger.balances user
  poolRoom : ledger.balances pool + amount.toNat < 2 ^ 64
  poolCovers : out.toNat ≤ ledger.balances pool + amount.toNat
  userRoom : ledger.balances user - amount.toNat + out.toNat < 2 ^ 64

section Swap

variable {ledger after : Ledger} {pool user : Address} {rate : UInt32 × UInt32}
  {amount out : UInt64}

theorem balances_settled (distinct : pool ≠ user)
    (admits : Admits ledger pool user amount out) :
    (settled ledger pool user amount out).balances =
      Exchanges.exchange ledger.balances pool user amount.toNat out.toNat := by
  have poolRoom := admits.poolRoom
  have userRoom := admits.userRoom
  rw [settled, balances_setLamports, balances_setLamports,
    toNat_ofNat_of_fits userRoom, toNat_ofNat_of_fits (by omega)]
  funext a
  by_cases atUser : a = user
  · subst atUser
    rw [Function.update_self, Exchanges.exchange_trader distinct]
  · rw [Function.update_of_ne atUser]
    by_cases atPool : a = pool
    · subst atPool
      rw [Function.update_self, Exchanges.exchange_pool distinct]
    · rw [Function.update_of_ne atPool, Exchanges.exchange_other atPool atUser]

theorem settled_other {a : Address} (notPool : a ≠ pool) (notUser : a ≠ user) :
    settled ledger pool user amount out a = ledger a := by
  rw [settled, Ledger.setLamports, Function.update_of_ne notUser, Ledger.setLamports,
    Function.update_of_ne notPool]

theorem parseSwap_call_eq_ok {args : MockAmm.SwapArgs} :
    MockAmm.parseSwap (encodeSwapWith 0 rate.1 rate.2 amount) = .ok args ↔
      rate.2 ≠ 0 ∧ args = ⟨rate.1, rate.2, amount⟩ := by
  rw [MockAmm.parseSwap_encode]
  by_cases zero : rate.2 = 0
  · simp [zero]
  · simp [zero, eq_comm]

theorem venue_eq_ok :
    venue ledger (swapCall pool user rate amount) = .ok after ↔
      ∃ out, MockAmm.swapOut amount rate.1 rate.2 = .ok out ∧
        Admits ledger pool user amount out ∧ after = settled ledger pool user amount out := by
  rw [venue, calleeOf_eq_ok]
  simp only [swapCall, swapInstruction, List.map_cons, List.map_nil,
    MockAmm.processInstruction_eq_ok, parseSwap_call_eq_ok]
  constructor
  · intro accepted
    obtain ⟨m, ⟨args, out, poolFinal, userFinal, ⟨_, argsExact⟩, swapped⟩, committed⟩ := accepted
    subst argsExact
    have covers := swapped.userCovers
    have room := swapped.poolFits
    have pay := swapped.poolFinal_eq
    have receive := swapped.userFinal_eq
    have poolBound : poolFinal.toNat < 2 ^ 64 := poolFinal.toNat_lt
    have userBound : userFinal.toNat < 2 ^ 64 := userFinal.toNat_lt
    simp only [Machine.start, InstructionAccount.view, InstructionAccount.writable] at *
    refine ⟨out, swapped.payout, ⟨swapped.poolOwned, covers, room, by omega, by omega⟩, ?_⟩
    have poolExact : poolFinal =
        UInt64.ofNat (ledger.balances pool + amount.toNat - out.toNat) := by
      rw [← UInt64.toNat_inj, toNat_ofNat_of_fits (by omega)]
      omega
    have userExact : userFinal =
        UInt64.ofNat (ledger.balances user - amount.toNat + out.toNat) := by
      rw [← UInt64.toNat_inj, toNat_ofNat_of_fits (by omega)]
      omega
    rw [← committed, swapped.written, poolExact, userExact, settled]
  · intro conditions
    obtain ⟨out, payout, admits, afterExact⟩ := conditions
    obtain ⟨owned, covers, room, poolCovers, userRoom⟩ := admits
    have swapped : MockAmm.Swapped venueId ⟨pool, false, true⟩ ⟨user, false, true⟩
        ⟨rate.1, rate.2, amount⟩ (Machine.start ledger)
        ⟨after, [], [⟨pool, false, true⟩, ⟨user, false, true⟩]⟩ out
        (UInt64.ofNat (ledger.balances pool + amount.toNat - out.toNat))
        (UInt64.ofNat (ledger.balances user - amount.toNat + out.toNat)) := by
      refine ⟨owned, rfl, rfl, payout, covers, room, ?_, ?_, ?_⟩
      · rw [toNat_ofNat_of_fits (by omega)]
        simp only [Machine.start]
        omega
      · rw [toNat_ofNat_of_fits userRoom]
        simp only [Machine.start]
        omega
      · rw [afterExact, settled]
        rfl
    exact ⟨_, ⟨_, out, _, _, ⟨(MockAmm.swapOut_eq_ok.mp payout).1, rfl⟩, swapped⟩, rfl⟩

end Swap

section Measured

variable {pool user : AccountView} {rate : UInt32 × UInt32} {amount out : UInt64} {m n : Machine}

/-- The router's own addition asks for more room at the user than the venue
does: the payout on top of the whole balance before the hop. -/
theorem measuredSwap_venue_eq_ok (distinct : pool.address ≠ user.address) :
    (measuredSwap venue venueId pool user (encodeSwapWith 0 rate.1 rate.2 amount)
      amount).run m = (.ok out, n) ↔
      MockAmm.swapOut amount rate.1 rate.2 = .ok out ∧
        (m.ledger pool.address).owner = venueId ∧
        Exchanges.Fits (2 ^ 64) user.address m.ledger.balances (leg pool.address amount out) ∧
        n = answered m (swapCall pool.address user.address rate amount)
          (settled m.ledger pool.address user.address amount out) := by
  rw [measuredSwap_eq_ok]
  constructor
  · intro swapped
    obtain ⟨ledger, answer, nExact, fits, outExact⟩ := swapped
    obtain ⟨paid, payout, admits, rfl⟩ := venue_eq_ok.mp answer
    rw [balances_settled distinct admits, Exchanges.exchange_trader distinct] at fits outExact
    have covers := admits.userCovers
    obtain rfl : out = paid := UInt64.toNat_inj.mp (by omega)
    exact ⟨payout, admits.poolOwned,
      ⟨covers, admits.poolRoom, admits.poolCovers, by simp only [leg]; omega⟩, nExact⟩
  · intro conditions
    obtain ⟨payout, owned, fits, nExact⟩ := conditions
    obtain ⟨covers, poolRoom, poolCovers, userRoom⟩ := fits
    simp only [leg] at covers poolRoom poolCovers userRoom
    have admits : Admits m.ledger pool.address user.address amount out :=
      ⟨owned, covers, poolRoom, poolCovers, by omega⟩
    refine ⟨_, venue_eq_ok.mpr ⟨out, payout, admits, rfl⟩, nExact, ?_, ?_⟩
    · rw [balances_settled distinct admits, Exchanges.exchange_trader distinct]
      omega
    · rw [balances_settled distinct admits, Exchanges.exchange_trader distinct]
      omega

end Measured

end HopperBench.Venue
