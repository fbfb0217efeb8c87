import HopperBench.Router.RouteOrders

/-!
# Runs of the routers and the venue

Anybody may swap at the venue or route through it, by either router, in any
order.  Such a run is a run of a market of pools in whole numbers: the answers
are the market's, the balances are the market's, and nothing else of any account
changes.
-/

set_option autoImplicit false

namespace HopperBench.MarketRuns

open StoppingRun HopperBench.Solana HopperBench.RouterBench HopperBench.MeasuredSwap
  HopperBench.Venue HopperBench.Stops HopperBench.RouteOrders Transactions

/-- What a client may send: a swap to the venue, or an order to a router. -/
inductive Request where
  | swap (pool user : Address) (rate : UInt32 × UInt32) (amount : UInt64)
  | route (framework : Framework) (order : RouteOrder)

/-- One transaction.  It is committed exactly when the program returns `Ok`, and
rolled back otherwise: the runtime's own rule, that a program debits only accounts
it owns, is not among the programs' checks, and under it traders are accounts of the
venue. -/
def requestStep (fw : QuasarRouter.Framework) (ids : Framework → Address) :
    Service.Step Ledger Request := fun ledger request =>
  match request with
  | .swap pool user rate amount => (venue ledger (swapCall pool user rate amount)).toOption
  | .route framework order =>
      (calleeOf (framework.router fw) ledger (routeInstruction (ids framework) order)).toOption

/-! ## The market behind the venue -/

/-- A request in whole numbers.  The router it is sent to does not enter. -/
def terms : Request → Market.Request Address
  | .swap pool user rate amount =>
      .swap user ⟨pool, rate.1.toNat, rate.2.toNat⟩ amount.toNat
  | .route _ order =>
      .place ⟨order.user, (order.stops.map venueStop).map quoteOf, order.initialAmount.toNat,
        order.minOut.toNat⟩

/-- The pools of the market are the accounts of the venue. -/
def rules (start : Ledger) : Market.Rules Address where
  limit := 2 ^ 64
  maxHops := 3
  isPool := fun a => (start a).owner = venueId

/-- The ledger has the balances of the sheet and is otherwise as at the start. -/
structure Holds (start ledger : Ledger) (sheet : Address → Nat) : Prop where
  balances : ledger.balances = sheet
  kept : ∀ a, (ledger a).owner = (start a).owner ∧ (ledger a).data = (start a).data

theorem toOption_eq_some {A : Type} {x : Except Abort A} {a : A} :
    x.toOption = some a ↔ x = .ok a := by
  cases x <;> simp [Except.toOption]

section Steps

variable {fw : QuasarRouter.Framework} {ids : Framework → Address} {start ledger after : Ledger}
  {sheet : Address → Nat}

theorem Holds.isPool (holds : Holds start ledger sheet) (a : Address) :
    (rules start).isPool a = true ↔ (ledger a).owner = venueId := by
  rw [rules, (holds.kept a).1]
  exact decide_eq_true_iff

theorem swap_holds (holds : Holds start ledger sheet) {pool user : Address}
    {rate : UInt32 × UInt32} {amount : UInt64} (distinct : pool ≠ user)
    {sheet' : Address → Nat} :
    Market.step (rules start) sheet (terms (.swap pool user rate amount)) = some sheet' ↔
      ∃ after, venue ledger (swapCall pool user rate amount) = .ok after ∧
        Holds start after sheet' := by
  obtain ⟨rfl, kept⟩ := holds
  let stop : Stop := ⟨⟨venueId, false, false⟩, ⟨pool, false, true⟩, rate⟩
  have traded : ∀ out, Admits ledger pool user amount out →
      Holds start (settled ledger pool user amount out)
        (Market.exchanged user ledger.balances (leg pool amount out)) := by
    intro out admits
    refine ⟨balances_settled distinct admits, ?_⟩
    intro a
    rw [settled_owner, settled_data]
    exact kept a
  have isPool : (rules start).isPool pool = true ↔ (ledger pool).owner = venueId :=
    Holds.isPool ⟨rfl, kept⟩ pool
  have served : ∀ out, (ledger pool).owner = venueId →
      (Admits ledger pool user amount out ↔
        Market.Serves (2 ^ 64) user ledger.balances (leg pool amount out)) := by
    intro out owned
    exact ⟨fun admits => ⟨admits.userCovers, admits.poolRoom, admits.poolCovers, admits.userRoom⟩,
      fun serves => ⟨owned, serves.traderCovers, serves.poolRoom, serves.poolCovers,
        serves.traderRoom⟩⟩
  simp only [terms, Market.step]
  constructor
  · intro accepted
    split at accepted
    case isFalse => cases accepted
    case isTrue listed =>
      have owned := isPool.mp listed
      obtain ⟨⟨nonzero, serves⟩, rfl⟩ := Market.swap_eq_some.mp accepted
      have bounded : (quoteOf stop).payout amount.toNat < 2 ^ 64 :=
        lt_of_le_of_lt (Nat.le_add_left _ _) serves.traderRoom
      obtain ⟨out, payout⟩ : ∃ out : UInt64, out.toNat = (quoteOf stop).payout amount.toNat :=
        ⟨_, CheckedWord.toNat_ofNat_of_fits bounded⟩
      have exact : Market.Quote.leg ⟨pool, rate.1.toNat, rate.2.toNat⟩ amount.toNat =
        leg pool amount out := quoteOf_leg stop payout
      rw [exact] at serves ⊢
      have admits := (served out owned).mpr serves
      exact ⟨_, venue_eq_ok.mpr ⟨out, (swapOut_quote stop).mpr ⟨nonzero, payout⟩, admits,
        rfl⟩, traded out admits⟩
  · intro given
    obtain ⟨after, answer, afterHolds⟩ := given
    obtain ⟨out, swapped, admits, rfl⟩ := venue_eq_ok.mp answer
    obtain ⟨nonzero, payout⟩ := (swapOut_quote stop).mp swapped
    have exact : Market.Quote.leg ⟨pool, rate.1.toNat, rate.2.toNat⟩ amount.toNat =
      leg pool amount out := quoteOf_leg stop payout
    rw [if_pos (isPool.mpr admits.poolOwned), Market.swap_eq_some, exact]
    refine ⟨⟨nonzero, (served out admits.poolOwned).mp admits⟩, ?_⟩
    rw [← afterHolds.balances]
    exact (traded out admits).balances

theorem walk_kept {user : AccountView} {stops : List Stop} {amount total : UInt64}
    {m final : Machine} (apart : ∀ stop ∈ stops, stop.pool.address ≠ user.address)
    (walked : (walk venue user stops amount).run m = (.ok total, final)) (a : Address) :
    (final.ledger a).owner = (m.ledger a).owner ∧ (final.ledger a).data = (m.ledger a).data := by
  obtain ⟨_, hops, _, _, _, rfl⟩ := (walk_eq_ok stops amount total m final apart).mp walked
  exact Refinement.ended_kept stops hops m a

theorem route_holds (lawful : fw.Lawful) (holds : Holds start ledger sheet)
    {framework : Framework} {order : RouteOrder}
    (apart : ∀ stop ∈ order.stops, stop.1 ≠ order.user) {sheet' : Address → Nat} :
    Market.step (rules start) sheet (terms (.route framework order)) = some sheet' ↔
      ∃ after, calleeOf (framework.router fw) ledger (routeInstruction (ids framework) order) =
        .ok after ∧ Holds start after sheet' := by
  have isPool := holds.isPool
  obtain ⟨rfl, kept⟩ := holds
  have stopsApart : ∀ stop ∈ order.stops.map venueStop,
      stop.pool.address ≠ order.userView.address := by
    intro stop member
    obtain ⟨named, inStops, rfl⟩ := List.mem_map.mp member
    exact apart named inStops
  have usable : (∀ quote ∈ (order.stops.map venueStop).map quoteOf,
      (rules start).isPool quote.pool = true) ↔
        ∀ stop ∈ order.stops.map venueStop, Usable ledger stop := by
    constructor
    · intro listed stop member
      obtain ⟨named, _, rfl⟩ := List.mem_map.mp member
      exact ⟨rfl, rfl, (isPool _).mp (listed _ (List.mem_map_of_mem member))⟩
    · intro usable quote member
      obtain ⟨stop, inStops, rfl⟩ := List.mem_map.mp member
      exact (isPool _).mpr (usable stop inStops).poolOwned
  have answer : ∀ after, calleeOf (framework.router fw) ledger
      (routeInstruction (ids framework) order) = .ok after ↔
        (1 ≤ order.stops.length ∧ order.stops.length ≤ 3) ∧ ∃ total final,
          (walk venue order.userView (order.stops.map venueStop) order.initialAmount).run
            (Machine.start ledger) = (.ok total, final) ∧ order.minOut ≤ total ∧
              final.ledger = after := by
    intro after
    rw [calleeOf_eq_ok]
    constructor
    · intro given
      obtain ⟨final, ok, left⟩ := given
      obtain ⟨count, total, walked, gate⟩ := order_eq_ok.mp ((router_eq_ok lawful framework).mp ok)
      exact ⟨count, total, final, walked, gate, left⟩
    · intro given
      obtain ⟨count, total, final, walked, gate, left⟩ := given
      exact ⟨final, (router_eq_ok lawful framework).mpr
        (order_eq_ok.mpr ⟨count, total, walked, gate⟩), left⟩
  simp only [terms, Market.step_place_eq_some, Market.fillOrder_eq_some, answer, usable]
  rw [List.length_map, List.length_map]
  constructor
  · intro given
    obtain ⟨out, ⟨some, few, allUsable⟩, filled, gate⟩ := given
    obtain ⟨total, final, walked, same, left⟩ := (walk_fill _ order.initialAmount
      (Machine.start ledger) out sheet' stopsApart allUsable).mp filled
    refine ⟨final.ledger, ⟨⟨some, few⟩, total, final, walked, ?_, rfl⟩, left, ?_⟩
    · rw [UInt64.le_iff_toNat_le, same]
      exact gate
    · intro a
      obtain ⟨owner, data⟩ := walk_kept stopsApart walked a
      rw [owner, data]
      exact kept a
  · intro given
    obtain ⟨after, ⟨⟨some, few⟩, total, final, walked, gate, rfl⟩, left, _⟩ := given
    have allUsable := ((walk_eq_ok _ _ _ _ _ stopsApart).mp walked).1
    exact ⟨total.toNat, ⟨some, few, allUsable⟩, (walk_fill _ order.initialAmount
      (Machine.start ledger) total.toNat sheet' stopsApart allUsable).mpr
        ⟨total, final, walked, rfl, left⟩, UInt64.le_iff_toNat_le.mp gate⟩

theorem requestStep_kept (lawful : fw.Lawful) {request : Request}
    (apart : (terms request).Apart) (accepted : requestStep fw ids ledger request = some after)
    (a : Address) :
    (after a).owner = (ledger a).owner ∧ (after a).data = (ledger a).data := by
  cases request with
  | swap pool user rate amount =>
      obtain ⟨out, _, _, rfl⟩ := venue_eq_ok.mp (toOption_eq_some.mp accepted)
      rw [settled_owner, settled_data]
      exact ⟨rfl, rfl⟩
  | route framework order =>
      obtain ⟨final, ok, rfl⟩ := calleeOf_eq_ok.mp (toOption_eq_some.mp accepted)
      obtain ⟨_, total, walked, _⟩ := order_eq_ok.mp ((router_eq_ok lawful framework).mp ok)
      refine walk_kept ?_ walked a
      intro stop member
      have quoted : (quoteOf stop).pool ∈ (terms (.route framework order)).pools :=
        List.mem_map_of_mem (List.mem_map_of_mem member)
      exact apart _ quoted

theorem request_holds (lawful : fw.Lawful) (holds : Holds start ledger sheet) {request : Request}
    (apart : (terms request).Apart) {sheet' : Address → Nat} :
    Market.step (rules start) sheet (terms request) = some sheet' ↔
      ∃ after, requestStep fw ids ledger request = some after ∧ Holds start after sheet' := by
  cases request with
  | swap pool user rate amount =>
      simp only [requestStep, toOption_eq_some]
      exact swap_holds holds (apart pool (List.mem_singleton.mpr rfl))
  | route framework order =>
      simp only [requestStep, toOption_eq_some]
      refine route_holds lawful holds ?_
      intro stop member
      have quoted : stop.1 ∈ (terms (.route framework order)).pools :=
        List.mem_map_of_mem (List.mem_map_of_mem (List.mem_map_of_mem member))
      exact apart _ quoted

theorem requests_simulate (lawful : fw.Lawful) (ids : Framework → Address) (start : Ledger) :
    Service.Simulates (Holds start) (fun request => (terms request).Apart) (requestStep fw ids)
      (Service.inTerms (Market.step (rules start)) terms) := by
  intro ledger sheet request apart holds
  cases accepted : requestStep fw ids ledger request with
  | none =>
      refine .inl ⟨rfl, ?_⟩
      cases served : Service.inTerms (Market.step (rules start)) terms sheet request with
      | none => rfl
      | some sheet' =>
          obtain ⟨after, answer, _⟩ := (request_holds lawful holds apart).mp served
          rw [accepted] at answer
          cases answer
  | some after =>
      have afterHolds : Holds start after after.balances := by
        refine ⟨rfl, ?_⟩
        intro a
        obtain ⟨owner, data⟩ := requestStep_kept lawful apart accepted a
        rw [owner, data]
        exact holds.kept a
      exact .inr ⟨after, after.balances, rfl,
        (request_holds lawful holds apart).mpr ⟨after, accepted, afterHolds⟩, afterHolds⟩

end Steps

/-! ## Two traders -/

def firstTrader : Address := fun _ => 1

def secondTrader : Address := fun _ => 2

def firstPool : Address := fun _ => 11

def secondPool : Address := fun _ => 12

def twoTraders : Ledger := fun a =>
  if a = firstPool ∨ a = secondPool then ⟨5000, venueId, []⟩ else ⟨1000, venueId, []⟩

def sampleIds : Framework → Address
  | .pinocchio => fun _ => 0xB2
  | .quasar => fun _ => 0x51

/-- Orders through both routers with a swap between them; the second order misses
its gate. -/
def twoTradersRequests : List Request :=
  [.route .pinocchio ⟨firstTrader, [(firstPool, (3, 2))], 150, 100⟩,
    .route .quasar ⟨secondTrader, [(secondPool, (1, 2))], 51, 100⟩,
    .swap secondPool secondTrader (2, 1) 100,
    .route .quasar ⟨firstTrader, [(firstPool, (3, 2)), (firstPool, (2, 3))], 300, 300⟩]

theorem twoTraders_apart : ∀ request ∈ twoTradersRequests, (terms request).Apart := by
  have first : firstPool ≠ firstTrader := by decide
  have second : secondPool ≠ secondTrader := by decide
  intro request listed
  simp only [twoTradersRequests, List.mem_cons, List.not_mem_nil, or_false] at listed
  rcases listed with rfl | rfl | rfl | rfl
  · exact List.forall_mem_singleton.mpr first
  · exact List.forall_mem_singleton.mpr second
  · exact List.forall_mem_singleton.mpr second
  · exact List.forall_mem_cons.mpr ⟨first, List.forall_mem_singleton.mpr first⟩

/-- Whoever sends what to which program, in any order: the programs accept and
refuse what the market does, and end with the market's balances and everything
else of every account as at the start. -/
theorem requests_run_as_market (fw : QuasarRouter.Framework) (lawful : fw.Lawful)
    (ids : Framework → Address) (start : Ledger) (requests : List Request)
    (apart : ∀ request ∈ requests, (terms request).Apart) :
    Service.answers (requestStep fw ids) start requests =
        Service.answers (Market.step (rules start)) start.balances (requests.map terms) ∧
      Holds start (runAll (Service.after (requestStep fw ids)) start requests)
        (runAll (Service.after (Market.step (rules start))) start.balances
          (requests.map terms)) := by
  have holds : Holds start start start.balances := ⟨rfl, fun _ => ⟨rfl, rfl⟩⟩
  obtain ⟨answered, final⟩ := (requests_simulate lawful ids start).run requests start
    start.balances apart holds
  rw [Service.answers_inTerms] at answered
  rw [Service.runAll_inTerms] at final
  exact ⟨answered, final⟩

theorem requests_run_as_market_two_traders :
    Service.answers (requestStep QuasarRouter.listFramework sampleIds) twoTraders
      twoTradersRequests = [true, false, true, true] := by
  rw [(requests_run_as_market QuasarRouter.listFramework QuasarRouter.listFramework_lawful sampleIds
    twoTraders twoTradersRequests twoTraders_apart).1]
  decide +kernel

/-! ## What a run moves -/

/-- What the accepted requests of `trader` put in over a run, and what they promise:
the gate of an order, and the quoted payout of a swap. -/
def paidBy (fw : QuasarRouter.Framework) (ids : Framework → Address) (trader : Address) :
    Ledger → List Request → Nat :=
  tally (Service.after (requestStep fw ids)) (Service.ifAccepted (requestStep fw ids)
    fun request => Market.paidBy trader (terms request))

def promisedTo (fw : QuasarRouter.Framework) (ids : Framework → Address) (trader : Address) :
    Ledger → List Request → Nat :=
  tally (Service.after (requestStep fw ids)) (Service.ifAccepted (requestStep fw ids)
    fun request => Market.promisedTo trader (terms request))

/-- What a run leaves: the lamports it found, every trader that is no pool at or
above the promises of its own requests, and whoever was not named as it was. -/
structure Accounted (fw : QuasarRouter.Framework) (ids : Framework → Address) (start final : Ledger)
    (requests : List Request) : Prop where
  total : final.total = start.total
  promises : ∀ trader, (∀ request ∈ requests, trader ∉ (terms request).pools) →
    start.balances trader + promisedTo fw ids trader start requests ≤
      final.balances trader + paidBy fw ids trader start requests
  untouched : ∀ a, (∀ request ∈ requests, a ≠ (terms request).trader ∧
    a ∉ (terms request).pools) → final a = start a

theorem account_eq {ledger ledger' : Ledger} {a : Address}
    (balance : ledger.balances a = ledger'.balances a)
    (kept : (ledger a).owner = (ledger' a).owner ∧ (ledger a).data = (ledger' a).data) :
    ledger a = ledger' a := by
  have lamports : (ledger a).lamports = (ledger' a).lamports := UInt64.toNat_inj.mp balance
  obtain ⟨owner, data⟩ := kept
  cases left : ledger a with
  | mk _ _ _ =>
      cases right : ledger' a with
      | mk _ _ _ =>
          rw [left, right] at lamports owner data
          cases lamports
          cases owner
          cases data
          rfl

/-- Over any run of requests of anybody, by either router and directly. -/
theorem requests_accounted (fw : QuasarRouter.Framework) (lawful : fw.Lawful)
    (ids : Framework → Address) (start : Ledger) (requests : List Request)
    (apart : ∀ request ∈ requests, (terms request).Apart) :
    Accounted fw ids start (runAll (Service.after (requestStep fw ids)) start requests)
      requests := by
  have holds : Holds start start start.balances := ⟨rfl, fun _ => ⟨rfl, rfl⟩⟩
  have simulates := requests_simulate lawful ids start
  obtain ⟨_, final⟩ := simulates.run requests start start.balances apart holds
  rw [Service.runAll_inTerms] at final
  have marketApart : ∀ request ∈ requests.map terms, request.Apart := by
    intro request member
    obtain ⟨sent, inRequests, rfl⟩ := List.mem_map.mp member
    exact apart sent inRequests
  -- the tallies of the programs are those of the market
  have tallied : ∀ amount : Market.Request Address → Nat,
      tally (Service.after (requestStep fw ids)) (Service.ifAccepted (requestStep fw ids)
          fun request => amount (terms request)) start requests =
        tally (Service.after (Market.step (rules start)))
          (Service.ifAccepted (Market.step (rules start)) amount) start.balances
          (requests.map terms) := by
    intro amount
    rw [simulates.tally _ requests start start.balances apart holds, Service.tally_inTerms]
  refine ⟨?_, ?_, ?_⟩
  · rw [Ledger.total, Ledger.total, final.balances]
    exact Market.run_total _ _ marketApart
  · intro trader notPool
    rw [promisedTo, paidBy, tallied, tallied, final.balances]
    apply Market.run_trader
    intro request member
    obtain ⟨sent, inRequests, rfl⟩ := List.mem_map.mp member
    exact ⟨apart sent inRequests, notPool sent inRequests⟩
  · intro a unnamed
    apply account_eq _ (final.kept a)
    rw [final.balances]
    apply Market.run_other
    intro request member
    obtain ⟨sent, inRequests, rfl⟩ := List.mem_map.mp member
    exact unnamed sent inRequests

theorem requests_accounted_two_traders :
    let final := runAll (Service.after (requestStep QuasarRouter.listFramework sampleIds))
      twoTraders twoTradersRequests
    final.total = twoTraders.total ∧
      1000 + promisedTo QuasarRouter.listFramework sampleIds firstTrader twoTraders
          twoTradersRequests ≤
        final.balances firstTrader + paidBy QuasarRouter.listFramework sampleIds firstTrader
          twoTraders twoTradersRequests := by
  intro final
  have accounted := requests_accounted QuasarRouter.listFramework
    QuasarRouter.listFramework_lawful sampleIds twoTraders twoTradersRequests twoTraders_apart
  refine ⟨accounted.total, accounted.promises firstTrader ?_⟩
  have firstOther : firstTrader ≠ firstPool := by decide
  have secondOther : firstTrader ≠ secondPool := by decide
  intro request listed
  simp only [twoTradersRequests, List.mem_cons, List.not_mem_nil, or_false] at listed
  rcases listed with rfl | rfl | rfl | rfl <;>
    simp [terms, Market.Request.pools, quoteOf, venueStop, firstOther, secondOther]

/-- Requests over separate accounts do not interfere: in any interleaving with
others that name none of `named`, the requests on `named` get the answers, and
leave the accounts, of the run of those requests alone. -/
theorem separate_requests_alone (fw : QuasarRouter.Framework) (lawful : fw.Lawful)
    (ids : Framework → Address) (start : Ledger) (named : Finset Address)
    (requests : List Request) (apart : ∀ request ∈ requests, (terms request).Apart)
    (separate : ∀ request ∈ requests, (terms request).Within ↑named ∨
      (terms request).Outside ↑named) :
    let own := fun request => decide ((terms request).trader ∈ named)
    Service.answersTo (requestStep fw ids) own start requests =
        Service.answersTo (requestStep fw ids) own start (requests.filter own) ∧
      ∀ a ∈ named, runAll (Service.after (requestStep fw ids)) start requests a =
        runAll (Service.after (requestStep fw ids)) start (requests.filter own) a := by
  intro own
  have holds : Holds start start start.balances := ⟨rfl, fun _ => ⟨rfl, rfl⟩⟩
  have simulates := requests_simulate lawful ids start
  have ownApart : ∀ request ∈ requests.filter own, (terms request).Apart :=
    fun request member => apart request (List.mem_of_mem_filter member)
  obtain ⟨_, final⟩ := simulates.run requests start start.balances apart holds
  obtain ⟨_, finalOwn⟩ := simulates.run (requests.filter own) start start.balances ownApart holds
  let ownTerms : Market.Request Address → Bool := fun request => decide (request.trader ∈ named)
  have filtered : (requests.filter own).map terms = (requests.map terms).filter ownTerms := by
    rw [List.filter_map]
    rfl
  have mine : ∀ request ∈ requests.map terms, ownTerms request = true →
      request.Within (named : Set Address) := by
    intro request member isOwn
    obtain ⟨sent, inRequests, rfl⟩ := List.mem_map.mp member
    rcases separate sent inRequests with within | outside
    · exact within
    · exact absurd (of_decide_eq_true isOwn) outside.1
  have others : ∀ request ∈ requests.map terms, ownTerms request = false →
      request.Outside (named : Set Address) := by
    intro request member notOwn
    obtain ⟨sent, inRequests, rfl⟩ := List.mem_map.mp member
    rcases separate sent inRequests with within | outside
    · exact absurd within.1 (of_decide_eq_false notOwn)
    · exact outside
  obtain ⟨answered, alike⟩ : Service.answersTo (Market.step (rules start)) ownTerms start.balances
        (requests.map terms) = _ ∧ Set.EqOn _ _ (named : Set Address) :=
    Market.run_separate (requests.map terms) mine others
  rw [Service.runAll_inTerms] at final finalOwn
  rw [filtered] at finalOwn
  refine ⟨?_, ?_⟩
  · rw [simulates.answersTo own requests start start.balances apart holds,
      simulates.answersTo own (requests.filter own) start start.balances ownApart holds,
      Service.answersTo_inTerms _ _ ownTerms, Service.answersTo_inTerms _ _ ownTerms, filtered]
    exact answered
  · intro a member
    apply account_eq
    · rw [final.balances, finalOwn.balances]
      exact alike member
    · rw [(final.kept a).1, (final.kept a).2, (finalOwn.kept a).1, (finalOwn.kept a).2]
      exact ⟨rfl, rfl⟩

theorem twoTraders_separate : ∀ request ∈ twoTradersRequests,
    (terms request).Within (({firstTrader, firstPool} : Finset Address) : Set Address) ∨
      (terms request).Outside (({firstTrader, firstPool} : Finset Address) : Set Address) := by
  have traders : secondTrader ≠ firstTrader ∧ secondTrader ≠ firstPool := by
    constructor <;> decide
  have pools : secondPool ≠ firstTrader ∧ secondPool ≠ firstPool := by
    constructor <;> decide
  intro request listed
  simp only [twoTradersRequests, List.mem_cons, List.not_mem_nil, or_false] at listed
  rcases listed with rfl | rfl | rfl | rfl
  · left
    simp [terms, Market.Request.Within, Market.Request.trader, Market.Request.pools, quoteOf,
      venueStop]
  · right
    simp [terms, Market.Request.Outside, Market.Request.trader, Market.Request.pools, quoteOf,
      venueStop, traders, pools]
  · right
    simp [terms, Market.Request.Outside, Market.Request.trader, Market.Request.pools, traders,
      pools]
  · left
    simp [terms, Market.Request.Within, Market.Request.trader, Market.Request.pools, quoteOf,
      venueStop]

theorem separate_requests_alone_first_trader :
    let own := fun request => decide ((terms request).trader ∈
      ({firstTrader, firstPool} : Finset Address))
    let step := requestStep QuasarRouter.listFramework sampleIds
    Service.answersTo step own twoTraders twoTradersRequests =
        Service.answersTo step own twoTraders (twoTradersRequests.filter own) ∧
      runAll (Service.after step) twoTraders twoTradersRequests firstTrader =
        runAll (Service.after step) twoTraders (twoTradersRequests.filter own) firstTrader := by
  intro own step
  obtain ⟨answered, alike⟩ := separate_requests_alone QuasarRouter.listFramework
    QuasarRouter.listFramework_lawful sampleIds twoTraders {firstTrader, firstPool}
    twoTradersRequests twoTraders_apart twoTraders_separate
  exact ⟨answered, alike firstTrader (Finset.mem_insert_self _ _)⟩

end HopperBench.MarketRuns
