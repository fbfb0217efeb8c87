import Mathlib.Algebra.Order.Ring.Nat
import HopperBench.Library.Balances

/-!
# Exchanges between one trader and many pools

A leg pays a pool and receives from it.  `replay` applies a list of legs in
order, and pools may repeat in it.  The trader's balance moves by what the legs
received minus what they paid, and every other holder's by what its own legs
paid minus what they received.  Where no pool repeats, each pool sees one leg,
on the balance it started with.
-/

set_option autoImplicit false

namespace Exchanges

variable {Holder : Type} [DecidableEq Holder]

/-- `paid` to the pool, then `received` back to the trader. -/
def exchange (sheet : Holder → Nat) (pool trader : Holder) (paid received : Nat) :
    Holder → Nat :=
  Balances.move (Balances.move sheet trader pool paid) pool trader received

section Single

variable {sheet : Holder → Nat} {pool trader : Holder} {paid received : Nat}

theorem exchange_trader (distinct : pool ≠ trader) :
    exchange sheet pool trader paid received trader = sheet trader - paid + received := by
  rw [exchange, Balances.move_dst distinct, Balances.move_src distinct.symm]

theorem exchange_pool (distinct : pool ≠ trader) :
    exchange sheet pool trader paid received pool = sheet pool + paid - received := by
  rw [exchange, Balances.move_src distinct, Balances.move_dst distinct.symm]

theorem exchange_other {holder : Holder} (notPool : holder ≠ pool) (notTrader : holder ≠ trader) :
    exchange sheet pool trader paid received holder = sheet holder := by
  rw [exchange, Balances.move_other notPool notTrader, Balances.move_other notTrader notPool]

theorem sum_exchange (holders : Finset Holder) (poolMember : pool ∈ holders)
    (traderMember : trader ∈ holders) (distinct : pool ≠ trader) (covers : paid ≤ sheet trader)
    (returned : received ≤ sheet pool + paid) :
    ∑ h ∈ holders, exchange sheet pool trader paid received h = ∑ h ∈ holders, sheet h := by
  have enough : received ≤ Balances.move sheet trader pool paid pool := by
    rw [Balances.move_dst distinct.symm]
    exact returned
  rw [exchange, Balances.sum_move holders _ poolMember traderMember enough,
    Balances.sum_move holders sheet traderMember poolMember covers]

theorem total_exchange [Fintype Holder] (distinct : pool ≠ trader) (covers : paid ≤ sheet trader)
    (returned : received ≤ sheet pool + paid) :
    Balances.total (exchange sheet pool trader paid received) = Balances.total sheet :=
  sum_exchange Finset.univ (Finset.mem_univ pool) (Finset.mem_univ trader) distinct covers returned

end Single

/-! ## Legs -/

structure Leg (Holder : Type) where
  pool : Holder
  paid : Nat
  received : Nat

def replay (trader : Holder) : (Holder → Nat) → List (Leg Holder) → Holder → Nat
  | sheet, [] => sheet
  | sheet, leg :: rest =>
      replay trader (exchange sheet leg.pool trader leg.paid leg.received) rest

/-- What one leg needs of the balances before it, where no balance may reach
`limit`. -/
structure Fits (limit : Nat) (trader : Holder) (sheet : Holder → Nat) (leg : Leg Holder) :
    Prop where
  traderCovers : leg.paid ≤ sheet trader
  poolRoom : sheet leg.pool + leg.paid < limit
  poolCovers : leg.received ≤ sheet leg.pool + leg.paid
  traderRoom : sheet trader + leg.received < limit

def Replayable (limit : Nat) (trader : Holder) : (Holder → Nat) → List (Leg Holder) → Prop
  | _, [] => True
  | sheet, leg :: rest => Fits limit trader sheet leg ∧
      Replayable limit trader (exchange sheet leg.pool trader leg.paid leg.received) rest

def paidTo (holder : Holder) (legs : List (Leg Holder)) : Nat :=
  ((legs.filter fun leg => leg.pool = holder).map Leg.paid).sum

def receivedFrom (holder : Holder) (legs : List (Leg Holder)) : Nat :=
  ((legs.filter fun leg => leg.pool = holder).map Leg.received).sum

section Replay

variable {limit : Nat} {trader : Holder}

theorem replay_trader : ∀ (legs : List (Leg Holder)) (sheet : Holder → Nat),
    (∀ leg ∈ legs, leg.pool ≠ trader) → Replayable limit trader sheet legs →
      replay trader sheet legs trader + (legs.map Leg.paid).sum =
        sheet trader + (legs.map Leg.received).sum := by
  intro legs
  induction legs with
  | nil => intro sheet _ _; rfl
  | cons leg rest ih =>
      intro sheet apart replayable
      obtain ⟨fits, later⟩ := replayable
      have tail := ih _ (fun other member => apart other (by simp [member])) later
      rw [exchange_trader (apart leg (by simp))] at tail
      have covers := fits.traderCovers
      simp only [replay, List.map_cons, List.sum_cons]
      omega

theorem replay_holder {holder : Holder} (notTrader : holder ≠ trader) :
    ∀ (legs : List (Leg Holder)) (sheet : Holder → Nat),
      (∀ leg ∈ legs, leg.pool ≠ trader) → Replayable limit trader sheet legs →
        replay trader sheet legs holder + receivedFrom holder legs =
          sheet holder + paidTo holder legs := by
  intro legs
  induction legs with
  | nil => intro sheet _ _; rfl
  | cons leg rest ih =>
      intro sheet apart replayable
      obtain ⟨fits, later⟩ := replayable
      have tail := ih _ (fun other member => apart other (by simp [member])) later
      have covers := fits.poolCovers
      simp only [receivedFrom, paidTo] at tail ⊢
      by_cases own : leg.pool = holder
      · subst own
        rw [exchange_pool (apart leg (by simp))] at tail
        simp only [replay, decide_true, List.filter_cons_of_pos, List.map_cons, List.sum_cons]
        omega
      · rw [exchange_other (Ne.symm own) notTrader] at tail
        simp only [replay, own, decide_false, Bool.false_eq_true, not_false_eq_true,
          List.filter_cons_of_neg]
        omega

/-! ## Pools visited once -/

theorem filter_pool_of_nodup {leg : Leg Holder} : ∀ (legs : List (Leg Holder)),
    (legs.map Leg.pool).Nodup → leg ∈ legs →
      (legs.filter fun other => other.pool = leg.pool) = [leg] := by
  intro legs
  induction legs with
  | nil => intro _ member; simp at member
  | cons first rest ih =>
      intro distinct member
      rw [List.map_cons, List.nodup_cons] at distinct
      obtain ⟨fresh, restDistinct⟩ := distinct
      rcases List.mem_cons.mp member with rfl | inRest
      · have none : (rest.filter fun other => other.pool = leg.pool) = [] := by
          rw [List.filter_eq_nil_iff]
          intro other inRest same
          apply fresh
          rw [← of_decide_eq_true same]
          exact List.mem_map_of_mem inRest
        rw [List.filter_cons_of_pos (by simp), none]
      · have elsewhere : first.pool ≠ leg.pool := by
          intro same
          apply fresh
          rw [same]
          exact List.mem_map_of_mem inRest
        rw [List.filter_cons_of_neg (by simpa using elsewhere), ih restDistinct inRest]

theorem paidTo_of_nodup {legs : List (Leg Holder)} {leg : Leg Holder}
    (distinct : (legs.map Leg.pool).Nodup) (member : leg ∈ legs) :
    paidTo leg.pool legs = leg.paid := by
  rw [paidTo, filter_pool_of_nodup legs distinct member]
  simp

theorem receivedFrom_of_nodup {legs : List (Leg Holder)} {leg : Leg Holder}
    (distinct : (legs.map Leg.pool).Nodup) (member : leg ∈ legs) :
    receivedFrom leg.pool legs = leg.received := by
  rw [receivedFrom, filter_pool_of_nodup legs distinct member]
  simp

theorem room_of_nodup {leg : Leg Holder} : ∀ (legs : List (Leg Holder)) (sheet : Holder → Nat),
    (∀ other ∈ legs, other.pool ≠ trader) → (legs.map Leg.pool).Nodup →
      Replayable limit trader sheet legs → leg ∈ legs → sheet leg.pool + leg.paid < limit := by
  intro legs
  induction legs with
  | nil => intro sheet _ _ _ member; simp at member
  | cons first rest ih =>
      intro sheet apart distinct replayable member
      obtain ⟨fits, later⟩ := replayable
      rw [List.map_cons, List.nodup_cons] at distinct
      obtain ⟨fresh, restDistinct⟩ := distinct
      rcases List.mem_cons.mp member with rfl | inRest
      · exact fits.poolRoom
      · have elsewhere : leg.pool ≠ first.pool := by
          intro same
          apply fresh
          rw [← same]
          exact List.mem_map_of_mem inRest
        have room := ih _ (fun other inside => apart other (by simp [inside])) restDistinct later
          inRest
        rw [exchange_other elsewhere (apart leg member)] at room
        exact room

/-! ## Chains

In a chain every leg pays what the one before it received. -/

def Forwards : Nat → List (Leg Holder) → Prop
  | _, [] => True
  | amount, leg :: rest => leg.paid = amount ∧ Forwards leg.received rest

/-- A chain over distinct pools can be replayed when each pool can serve its leg
on its first balance.  Besides what the chain carries, the trader keeps `kept`. -/
theorem replayable_of_chain {kept : Nat} : ∀ (legs : List (Leg Holder)) (sheet : Holder → Nat)
    (amount : Nat), Forwards amount legs → (∀ leg ∈ legs, leg.pool ≠ trader) →
      (legs.map Leg.pool).Nodup → sheet trader = kept + amount →
      (∀ leg ∈ legs, leg.received ≤ sheet leg.pool + leg.paid) →
      (∀ leg ∈ legs, sheet leg.pool + leg.paid < limit) →
      (∀ leg ∈ legs, kept + leg.paid + leg.received < limit) →
        Replayable limit trader sheet legs := by
  intro legs
  induction legs with
  | nil => intro sheet amount _ _ _ _ _ _ _; trivial
  | cons first rest ih =>
      intro sheet amount forwards apart distinct holds covers room returns
      obtain ⟨paid, later⟩ := forwards
      have firstApart := apart first List.mem_cons_self
      rw [List.map_cons, List.nodup_cons] at distinct
      obtain ⟨fresh, restDistinct⟩ := distinct
      have firstReturns := returns first List.mem_cons_self
      -- the pools still to come have not been touched
      have others : ∀ leg ∈ rest,
          exchange sheet first.pool trader first.paid first.received leg.pool =
            sheet leg.pool := by
        intro leg member
        apply exchange_other
        · intro same
          apply fresh
          rw [← same]
          exact List.mem_map_of_mem member
        · exact apart leg (List.mem_cons_of_mem _ member)
      refine ⟨⟨by omega, room first List.mem_cons_self, covers first List.mem_cons_self,
        by omega⟩, ?_⟩
      apply ih _ first.received later
      · exact fun leg member => apart leg (List.mem_cons_of_mem _ member)
      · exact restDistinct
      · rw [exchange_trader firstApart]
        omega
      · intro leg member
        rw [others leg member]
        exact covers leg (List.mem_cons_of_mem _ member)
      · intro leg member
        rw [others leg member]
        exact room leg (List.mem_cons_of_mem _ member)
      · exact fun leg member => returns leg (List.mem_cons_of_mem _ member)

end Replay

end Exchanges
