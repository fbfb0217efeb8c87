import HopperBench.Router.RouterBench
import HopperBench.Router.Venue

/-!
# The hop loop along its stops

The loop of the Pinocchio router indexes accounts and rates by the hop number.
Once they are found it is a walk along a list of stops.  Over the real venue
the walk succeeds exactly when the rate fold does and its legs can be replayed
on the balances, and `ended` is the machine it leaves.
-/

set_option autoImplicit false

namespace HopperBench.Stops

open StoppingRun HopperBench.Solana HopperBench.RouteWire HopperBench.MeasuredSwap
  HopperBench.RouterBench HopperBench.Venue

structure Stop where
  ammProgram : AccountView
  pool : AccountView
  rate : UInt32 × UInt32

def walk (callee : Callee) (user : AccountView) : List Stop → UInt64 → Program UInt64
  | [], amount => pure amount
  | stop :: rest, amount => do
      ensure (stop.ammProgram.address = venueId) .incorrectProgramId
      ensure (stop.pool.isWritable = true) .invalidAccountData
      let out ← measuredSwap callee venueId stop.pool user
        (encodeSwapWith 0 stop.rate.1 stop.rate.2 amount) amount
      walk callee user rest out

/-- The stops of a route, as the account list and the rate blocks give them. -/
structure Itinerary (accounts : List AccountView) (route : Route) (stops : List Stop) : Prop where
  count : stops.length = route.hopCount.toNat
  programFound : ∀ i (inside : i < stops.length),
    accounts[1 + 2 * i]? = some stops[i].ammProgram
  poolFound : ∀ i (inside : i < stops.length), accounts[2 + 2 * i]? = some stops[i].pool
  rateRead : ∀ i (inside : i < stops.length),
    PinocchioRouter.hopRate route i = .ok stops[i].rate

theorem exists_itinerary {accounts : List AccountView} {payload : List UInt8} {route : Route}
    (parsed : PinocchioRouter.parseRoute payload = .ok route)
    (enough : 1 + 2 * route.hopCount.toNat ≤ accounts.length) :
    ∃ stops, Itinerary accounts route stops := by
  obtain ⟨rates, rateCount, rateRead, _⟩ := routeGrammar_shared.encodes payload route parsed
  refine ⟨List.ofFn fun i : Fin route.hopCount.toNat =>
    ⟨accounts[1 + 2 * i.val], accounts[2 + 2 * i.val], rates[i.val]⟩, ?_, ?_, ?_, ?_⟩
  · rw [List.length_ofFn]
  · intro i inside
    rw [List.length_ofFn] at inside
    rw [List.getElem_ofFn, List.getElem?_eq_getElem (by omega)]
  · intro i inside
    rw [List.length_ofFn] at inside
    rw [List.getElem_ofFn, List.getElem?_eq_getElem (by omega)]
  · intro i inside
    rw [List.length_ofFn] at inside
    rw [List.getElem_ofFn]
    exact rateRead i (by omega)

section Walk

variable {callee : Callee} {accounts : List AccountView} {route : Route} {user : AccountView}
  {stops : List Stop}

theorem walk_cons_run {stop : Stop} {rest : List Stop} {hop : Nat} (amount : UInt64)
    (rateRead : PinocchioRouter.hopRate route hop = .ok stop.rate) (m : Machine) :
    (walk callee user (stop :: rest) amount).run m =
      (checkedHop callee route user stop.ammProgram stop.pool hop amount >>=
        walk callee user rest).run m := by
  have rateRead' : hopRateWith 8 route.rates hop = .ok stop.rate := rateRead
  rw [walk, checkedHop, rateRead']
  simp only [Exec.bind_bind]
  rfl

theorem loop_eq_walk (itinerary : Itinerary accounts route stops) :
    ∀ (left hop : Nat) (amount : UInt64) (m : Machine), hop + left = stops.length →
      (Exec.countUp (PinocchioRouter.hopStep callee accounts route user) left hop amount).run m =
        (walk callee user (stops.drop hop) amount).run m := by
  have count := itinerary.count
  have countBound : route.hopCount.toNat < 256 := route.hopCount.toNat_lt
  intro left
  induction left with
  | zero =>
      intro hop amount m reached
      rw [List.drop_eq_nil_of_le (by omega)]
      rfl
  | succ left ih =>
      intro hop amount m reached
      have inside : hop < stops.length := by omega
      rw [List.drop_eq_getElem_cons inside, walk_cons_run amount (itinerary.rateRead hop inside)]
      apply Exec.Agree.run_eq
      have same : (PinocchioRouter.hopStep callee accounts route user hop amount).run m =
          (checkedHop callee route user stops[hop].ammProgram stops[hop].pool hop amount).run m :=
        PinocchioRouter.hopStep_run (by omega) (itinerary.programFound hop inside)
          (itinerary.poolFound hop inside) m
      refine (Exec.agree_of_run_eq same).bind ?_
      intro out out' t equal
      subst equal
      exact Exec.agree_of_run_eq (ih (hop + 1) out t (by omega))

end Walk

/-! ## Over the real venue -/

/-- The venue's part of a stop: it is the venue, and it owns a writable pool. -/
structure Usable (ledger : Ledger) (stop : Stop) : Prop where
  venueNamed : stop.ammProgram.address = venueId
  poolWritable : stop.pool.isWritable = true
  poolOwned : (ledger stop.pool.address).owner = venueId

def legs (stops : List Stop) (hops : List (UInt64 × UInt64)) : List (Exchanges.Leg Address) :=
  List.zipWith (fun stop hop => leg stop.pool.address hop.1 hop.2) stops hops

theorem legs_cons (stop : Stop) (rest : List Stop) (hop : UInt64 × UInt64)
    (tail : List (UInt64 × UInt64)) :
    legs (stop :: rest) (hop :: tail) =
      leg stop.pool.address hop.1 hop.2 :: legs rest tail := rfl

/-- The machine at the end of a walk that swapped `hops` at `stops`. -/
def ended (user : Address) : Machine → List Stop → List (UInt64 × UInt64) → Machine
  | m, stop :: rest, (amount, out) :: hops =>
      ended user (answered m (swapCall stop.pool.address user stop.rate amount)
        (settled m.ledger stop.pool.address user amount out)) rest hops
  | m, _, _ => m

def finalOut : UInt64 → List (UInt64 × UInt64) → UInt64
  | amount, [] => amount
  | _, hop :: rest => finalOut hop.2 rest

theorem usable_settled {ledger : Ledger} {pool user : Address} {amount out : UInt64}
    {stop : Stop} : Usable (settled ledger pool user amount out) stop ↔ Usable ledger stop := by
  constructor
  · intro usable
    obtain ⟨named, writable, owned⟩ := usable
    rw [settled_owner] at owned
    exact ⟨named, writable, owned⟩
  · intro usable
    obtain ⟨named, writable, owned⟩ := usable
    refine ⟨named, writable, ?_⟩
    rw [settled_owner]
    exact owned

theorem admits_of_fits {ledger : Ledger} {pool user : Address} {amount out : UInt64}
    (owned : (ledger pool).owner = venueId)
    (fits : Exchanges.Fits (2 ^ 64) user ledger.balances (leg pool amount out)) :
    Admits ledger pool user amount out := by
  obtain ⟨covers, poolRoom, poolCovers, userRoom⟩ := fits
  simp only [leg] at covers poolRoom poolCovers userRoom
  exact ⟨owned, covers, poolRoom, poolCovers, by omega⟩

section Walk

variable {user : AccountView}

theorem walk_cons_eq_ok {stop : Stop} {rest : List Stop} {amount total : UInt64} {m n : Machine}
    (distinct : stop.pool.address ≠ user.address) :
    (walk venue user (stop :: rest) amount).run m = (.ok total, n) ↔
      Usable m.ledger stop ∧ ∃ out, MockAmm.swapOut amount stop.rate.1 stop.rate.2 = .ok out ∧
        Exchanges.Fits (2 ^ 64) user.address m.ledger.balances
          (leg stop.pool.address amount out) ∧
        (walk venue user rest out).run
          (answered m (swapCall stop.pool.address user.address stop.rate amount)
            (settled m.ledger stop.pool.address user.address amount out)) = (.ok total, n) := by
  simp only [walk, Exec.bind_eq_ok, ensure_eq_ok, measuredSwap_venue_eq_ok distinct]
  constructor
  · intro walked
    obtain ⟨_, _, ⟨named, same⟩, _, _, ⟨writable, same'⟩, out, t, ⟨payout, owned, fits, tExact⟩,
      tail⟩ := walked
    subst same same' tExact
    exact ⟨⟨named, writable, owned⟩, out, payout, fits, tail⟩
  · intro conditions
    obtain ⟨⟨named, writable, owned⟩, out, payout, fits, tail⟩ := conditions
    exact ⟨(), m, ⟨named, rfl⟩, (), m, ⟨writable, rfl⟩, out, _, ⟨payout, owned, fits, rfl⟩, tail⟩

theorem walk_eq_ok : ∀ (stops : List Stop) (amount total : UInt64) (m n : Machine),
    (∀ stop ∈ stops, stop.pool.address ≠ user.address) →
      ((walk venue user stops amount).run m = (.ok total, n) ↔
        (∀ stop ∈ stops, Usable m.ledger stop) ∧
          ∃ hops, Folds amount (stops.map Stop.rate) hops ∧
            Exchanges.Replayable (2 ^ 64) user.address m.ledger.balances (legs stops hops) ∧
            total = finalOut amount hops ∧ n = ended user.address m stops hops) := by
  intro stops
  induction stops with
  | nil =>
      intro amount total m n _
      simp only [walk, Exec.run_pure, Prod.mk.injEq, Except.ok.injEq, List.not_mem_nil,
        List.map_nil, Folds]
      constructor
      · intro ended
        obtain ⟨totalExact, nExact⟩ := ended
        exact ⟨by simp, [], rfl, trivial, totalExact.symm, nExact.symm⟩
      · intro conditions
        obtain ⟨_, hops, noHops, _, totalExact, nExact⟩ := conditions
        subst noHops
        exact ⟨totalExact.symm, nExact.symm⟩
  | cons stop rest ih =>
      intro amount total m n apart
      have distinct := apart stop (by simp)
      have restApart : ∀ other ∈ rest, other.pool.address ≠ user.address := by
        intro other member
        exact apart other (by simp [member])
      rw [walk_cons_eq_ok distinct]
      constructor
      · intro walked
        obtain ⟨usable, out, payout, fits, tail⟩ := walked
        obtain ⟨restUsable, hops, folds, replayable, totalExact, nExact⟩ :=
          (ih _ _ _ _ restApart).mp tail
        have admits := admits_of_fits usable.poolOwned fits
        simp only [answered, balances_settled distinct admits] at replayable
        refine ⟨?_, (amount, out) :: hops, ⟨out, hops, payout, rfl, folds⟩, ⟨fits, replayable⟩,
          totalExact, nExact⟩
        intro other member
        rcases List.mem_cons.mp member with same | inRest
        · rw [same]
          exact usable
        · exact usable_settled.mp (restUsable other inRest)
      · intro conditions
        obtain ⟨usable, hops, ⟨out, tail, payout, hopsExact, folds⟩, replayable, totalExact,
          nExact⟩ := conditions
        subst hopsExact
        obtain ⟨fits, restReplayable⟩ := replayable
        have stopUsable := usable stop (by simp)
        have admits := admits_of_fits stopUsable.poolOwned fits
        refine ⟨stopUsable, out, payout, fits, ?_⟩
        rw [ih _ _ _ _ restApart]
        refine ⟨?_, tail, folds, ?_, totalExact, nExact⟩
        · intro other member
          exact usable_settled.mpr (usable other (by simp [member]))
        · simp only [answered, balances_settled distinct admits]
          exact restReplayable

end Walk

end HopperBench.Stops
