import HopperBench.Library.Market
import HopperBench.Router.Agreement
import HopperBench.Router.RouteRun

/-!
# Routes as orders of a market

An order names its user, its pools and their rates, and `routeInstruction` is
the instruction of the contract that carries it.  Either router fills an order
exactly when the market behind the venue does, and leaves the market's balances.
-/

set_option autoImplicit false

namespace HopperBench.RouteOrders

open StoppingRun HopperBench.Solana HopperBench.RouteWire HopperBench.RouterBench
  HopperBench.MeasuredSwap HopperBench.Venue HopperBench.Stops

inductive Framework where
  | pinocchio
  | quasar
deriving DecidableEq

/-- The router of a framework, with the venue as the program it calls. -/
def Framework.router (fw : QuasarRouter.Framework) :
    Framework → Address → List AccountView → List UInt8 → Program Unit
  | .pinocchio => RouteRun.pinocchioRouter
  | .quasar => QuasarRouter.processInstruction fw (calleeOf MockAmm.processInstruction)

/-- The two routers return `Ok` on the same instructions, from the same run. -/
theorem router_eq_ok {fw : QuasarRouter.Framework} (lawful : fw.Lawful) (framework : Framework)
    {programId : Address} {user : AccountView} {rest : List AccountView} {data : List UInt8}
    {ledger : Ledger} {final : Machine} :
    (framework.router fw programId (user :: rest) data).run (Machine.start ledger) =
        (.ok (), final) ↔
      (RouteRun.pinocchioRouter programId (user :: rest) data).run (Machine.start ledger) =
        (.ok (), final) := by
  cases framework with
  | pinocchio => exact Iff.rfl
  | quasar =>
      rw [Framework.router]
      constructor
      · intro ok
        have sufficient := Agreement.quasar_ok_sufficient lawful ok
        exact (Agreement.entry_agree lawful sufficient _).symm.trans ok
      · intro ok
        have sufficient := Agreement.pinocchio_ok_sufficient ok
        exact (Agreement.entry_agree lawful sufficient _).trans ok

/-! ## Orders -/

structure RouteOrder where
  user : Address
  stops : List (Address × (UInt32 × UInt32))
  minOut : UInt64
  initialAmount : UInt64

def RouteOrder.rates (order : RouteOrder) : List (UInt32 × UInt32) := order.stops.map Prod.snd

def RouteOrder.payload (order : RouteOrder) : List UInt8 :=
  (executeRouteData order.minOut order.initialAmount order.rates).drop 1

/-- The instruction of an order: the user, then the venue and a pool for every
hop. -/
def routeInstruction (programId : Address) (order : RouteOrder) : InstructionView where
  programId := programId
  accounts := ⟨order.user, true, false⟩ :: order.stops.flatMap fun stop =>
    [⟨RouterBench.mockAmmProgramId, false, false⟩, ⟨stop.1, true, false⟩]
  data := executeRouteData order.minOut order.initialAmount order.rates

def RouteOrder.userView (order : RouteOrder) : AccountView := ⟨order.user, false, true⟩

def venueStop (stop : Address × (UInt32 × UInt32)) : Stop :=
  ⟨⟨RouterBench.mockAmmProgramId, false, false⟩, ⟨stop.1, false, true⟩, stop.2⟩

section Instruction

variable {programId : Address} {order : RouteOrder}

theorem routeInstruction_data :
    (routeInstruction programId order).data = 1 :: order.payload := by
  simp only [routeInstruction, RouteOrder.payload, executeRouteData_eq, List.drop_one,
    List.tail_cons]

theorem length_flatMap_pair {A B : Type} (f g : A → B) (xs : List A) :
    (xs.flatMap fun x => [f x, g x]).length = 2 * xs.length := by
  induction xs with
  | nil => rfl
  | cons x rest ih =>
      rw [List.flatMap_cons, List.length_append, ih, List.length_cons]
      simp only [List.length_cons, List.length_nil]
      omega

theorem routeInstruction_views : (routeInstruction programId order).accounts.map
    InstructionAccount.view = order.userView :: (order.stops.map venueStop).flatMap fun stop =>
      [stop.ammProgram, stop.pool] := by
  simp [routeInstruction, RouteOrder.userView, venueStop, InstructionAccount.view,
    List.map_flatMap, List.flatMap_map]

theorem views_length : (order.userView :: (order.stops.map venueStop).flatMap fun stop =>
    [stop.ammProgram, stop.pool]).length = 1 + 2 * order.stops.length := by
  rw [List.length_cons, length_flatMap_pair, List.length_map, Nat.add_comm]

theorem itinerary_order {route : Route}
    (parsed : PinocchioRouter.parseRoute order.payload = .ok route) :
    Itinerary (order.userView :: (order.stops.map venueStop).flatMap fun stop =>
      [stop.ammProgram, stop.pool]) route (order.stops.map venueStop) := by
  obtain ⟨_, hopCount, _, ratesRead⟩ := routeGrammar_shared.decodes _ _ _ route parsed
  rw [RouteOrder.rates, List.length_map] at hopCount
  refine ⟨by rw [List.length_map, hopCount], ?_, ?_, ?_⟩
  · intro i inside
    rw [Nat.add_comm, List.getElem?_cons_succ, (RouteRun.getElem?_flatMap_pair _ _ _ _).1,
      List.getElem?_eq_getElem inside]
    rfl
  · intro i inside
    have position : 2 + 2 * i = 2 * i + 1 + 1 := by omega
    rw [position, List.getElem?_cons_succ, (RouteRun.getElem?_flatMap_pair _ _ _ _).2,
      List.getElem?_eq_getElem inside]
    rfl
  · intro i inside
    rw [List.length_map] at inside
    rw [List.getElem_map]
    have read := ratesRead i (by rw [RouteOrder.rates, List.length_map]; exact inside)
    simp only [RouteOrder.rates, List.getElem_map] at read
    exact read

theorem order_eq_ok {ledger : Ledger} {final : Machine} :
    (RouteRun.pinocchioRouter programId
        ((routeInstruction programId order).accounts.map InstructionAccount.view)
        (routeInstruction programId order).data).run (Machine.start ledger) = (.ok (), final) ↔
      (1 ≤ order.stops.length ∧ order.stops.length ≤ 3) ∧ ∃ total,
        (walk venue order.userView (order.stops.map venueStop) order.initialAmount).run
          (Machine.start ledger) = (.ok total, final) ∧ order.minOut ≤ total := by
  rw [routeInstruction_views, routeInstruction_data, RouteRun.pinocchioRouter,
    PinocchioRouter.processInstruction_eq_ok]
  have accepts := routeGrammar_shared.accepts order.minOut order.initialAmount order.rates
  have length : order.rates.length = order.stops.length := List.length_map _
  rw [length] at accepts
  -- what a parsed payload says of the order
  have decoded : ∀ route, PinocchioRouter.parseRoute order.payload = .ok route →
      route.minOut = order.minOut ∧ route.initialAmount = order.initialAmount ∧
        ∀ final', (PinocchioRouter.processExecuteRoute venue
            (order.userView :: (order.stops.map venueStop).flatMap fun stop =>
              [stop.ammProgram, stop.pool]) order.payload).run (Machine.start ledger) =
              (.ok (), final') ↔
            order.userView.isWritable = true ∧ ∃ total,
              (walk venue order.userView (order.stops.map venueStop) route.initialAmount).run
                (Machine.start ledger) = (.ok total, final') ∧ route.minOut ≤ total := by
    intro route parsed
    obtain ⟨minOut, hopCount, initial, _⟩ := routeGrammar_shared.decodes _ _ _ route parsed
    refine ⟨minOut, initial, ?_⟩
    intro final'
    refine Refinement.processExecuteRoute_walk_eq_ok parsed ?_ rfl (itinerary_order parsed)
    rw [views_length, hopCount, length]
  constructor
  · intro given
    obtain ⟨payload, same, executed⟩ := given
    obtain rfl := List.tail_eq_of_cons_eq same
    obtain ⟨route, _, _, parsed, _⟩ := PinocchioRouter.processExecuteRoute_eq_ok.mp executed
    obtain ⟨minOut, initial, walks⟩ := decoded route parsed
    obtain ⟨_, total, walked, gate⟩ := (walks final).mp executed
    rw [initial] at walked
    rw [minOut] at gate
    exact ⟨accepts.mp ⟨route, parsed⟩, total, walked, gate⟩
  · intro given
    obtain ⟨count, total, walked, gate⟩ := given
    obtain ⟨route, parsed⟩ := accepts.mpr count
    obtain ⟨minOut, initial, walks⟩ := decoded route parsed
    rw [← initial] at walked
    rw [← minOut] at gate
    exact ⟨order.payload, rfl, (walks final).mpr ⟨rfl, total, walked, gate⟩⟩

end Instruction

def quoteOf (stop : Stop) : Market.Quote Address :=
  ⟨stop.pool.address, stop.rate.1.toNat, stop.rate.2.toNat⟩

theorem quoteOf_leg (stop : Stop) {amount out : UInt64}
    (payout : out.toNat = (quoteOf stop).payout amount.toNat) :
    (quoteOf stop).leg amount.toNat = leg stop.pool.address amount out := by
  rw [Market.Quote.leg, ← payout]
  rfl

theorem swapOut_quote (stop : Stop) {amount out : UInt64} :
    MockAmm.swapOut amount stop.rate.1 stop.rate.2 = .ok out ↔
      (quoteOf stop).den ≠ 0 ∧ out.toNat = (quoteOf stop).payout amount.toNat := by
  have zero : stop.rate.2 ≠ 0 ↔ (quoteOf stop).den ≠ 0 :=
    not_congr UInt32.toNat_inj.symm
  rw [MockAmm.swapOut_eq_ok, zero]
  rfl

/-- The walk along usable stops is the chain of the market. -/
theorem walk_fill {user : AccountView} : ∀ (stops : List Stop) (amount : UInt64) (m : Machine)
    (out : Nat) (after : Address → Nat), (∀ stop ∈ stops, stop.pool.address ≠ user.address) →
      (∀ stop ∈ stops, Usable m.ledger stop) →
        (Market.fill (2 ^ 64) user.address m.ledger.balances amount.toNat (stops.map quoteOf) =
            some (out, after) ↔
          ∃ total final, (walk venue user stops amount).run m = (.ok total, final) ∧
            total.toNat = out ∧ final.ledger.balances = after) := by
  intro stops
  induction stops with
  | nil =>
      intro amount m out after _ _
      simp [Market.fill, walk]
  | cons stop rest ih =>
      intro amount m out after apart usable
      have distinct := apart stop List.mem_cons_self
      have here := usable stop List.mem_cons_self
      have restApart : ∀ other ∈ rest, other.pool.address ≠ user.address :=
        fun other member => apart other (List.mem_cons_of_mem _ member)
      have restUsable : ∀ paid, ∀ other ∈ rest, Usable (answered m
          (swapCall stop.pool.address user.address stop.rate amount)
          (settled m.ledger stop.pool.address user.address amount paid)).ledger other :=
        fun paid other member => usable_settled.mpr (usable other (List.mem_cons_of_mem _ member))
      -- the balances that a hop leaves are those of the market
      have traded : ∀ paid : UInt64, paid.toNat = (quoteOf stop).payout amount.toNat →
          Exchanges.Fits (2 ^ 64) user.address m.ledger.balances
            ((quoteOf stop).leg amount.toNat) →
          (settled m.ledger stop.pool.address user.address amount paid).balances =
            Market.exchanged user.address m.ledger.balances ((quoteOf stop).leg amount.toNat) := by
        intro paid payout fits
        rw [quoteOf_leg stop payout] at fits ⊢
        exact balances_settled distinct (admits_of_fits here.poolOwned fits)
      rw [List.map_cons, Market.fill_cons]
      constructor
      · intro filled
        obtain ⟨⟨rate, fits⟩, later⟩ := filled
        have bounded : (quoteOf stop).payout amount.toNat < 2 ^ 64 := by
          have room := fits.traderRoom
          exact lt_of_le_of_lt (Nat.le_add_left _ _) room
        obtain ⟨paid, payout⟩ : ∃ paid : UInt64,
            paid.toNat = (quoteOf stop).payout amount.toNat :=
          ⟨_, CheckedWord.toNat_ofNat_of_fits bounded⟩
        rw [← traded paid payout fits, ← payout] at later
        obtain ⟨total, final, walked, same, left⟩ := (ih paid _ out after restApart
          (restUsable paid)).mp later
        rw [quoteOf_leg stop payout] at fits
        exact ⟨total, final, (walk_cons_eq_ok distinct).mpr
          ⟨here, paid, (swapOut_quote stop).mpr ⟨rate, payout⟩, fits, walked⟩, same, left⟩
      · intro walked
        obtain ⟨total, final, walked, same, left⟩ := walked
        obtain ⟨_, paid, swapped, fits, later⟩ := (walk_cons_eq_ok distinct).mp walked
        obtain ⟨rate, payout⟩ := (swapOut_quote stop).mp swapped
        rw [← quoteOf_leg stop payout] at fits
        refine ⟨⟨rate, fits⟩, ?_⟩
        rw [← traded paid payout fits, ← payout]
        exact (ih paid _ out after restApart (restUsable paid)).mpr
          ⟨total, final, later, same, left⟩

end HopperBench.RouteOrders
