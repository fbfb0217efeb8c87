import Mathlib.Tactic.MkIffOfInductiveProp
import HopperBench.Library.Exchanges
import HopperBench.Library.Service

/-!
# A market of pools

Traders exchange with pools at quoted rates, in whole numbers that stay below a
limit.  A swap is one exchange.  An order is a chain of them, each putting in
what the one before it put out, and it is filled as a whole or not at all.
-/

set_option autoImplicit false

namespace Market

open Exchanges Transactions

variable {Holder : Type} [DecidableEq Holder]

/-- A pool that pays `num` for every `den`. -/
structure Quote (Holder : Type) where
  pool : Holder
  num : Nat
  den : Nat

def Quote.payout (quote : Quote Holder) (amount : Nat) : Nat := amount * quote.num / quote.den

def Quote.leg (quote : Quote Holder) (amount : Nat) : Leg Holder :=
  ⟨quote.pool, amount, quote.payout amount⟩

structure Order (Holder : Type) where
  trader : Holder
  quotes : List (Quote Holder)
  amount : Nat
  minOut : Nat

inductive Request (Holder : Type) where
  | swap (trader : Holder) (quote : Quote Holder) (amount : Nat)
  | place (order : Order Holder)

/-- What a pool asks of the balances before an exchange with it. -/
@[mk_iff] structure Serves (limit : Nat) (trader : Holder) (sheet : Holder → Nat)
    (leg : Leg Holder) : Prop where
  traderCovers : leg.paid ≤ sheet trader
  poolRoom : sheet leg.pool + leg.paid < limit
  poolCovers : leg.received ≤ sheet leg.pool + leg.paid
  traderRoom : sheet trader - leg.paid + leg.received < limit

attribute [mk_iff] Exchanges.Fits

instance (limit : Nat) (trader : Holder) (sheet : Holder → Nat) (leg : Leg Holder) :
    Decidable (Serves limit trader sheet leg) := decidable_of_iff' _ (serves_iff _ _ _ _)

instance (limit : Nat) (trader : Holder) (sheet : Holder → Nat) (leg : Leg Holder) :
    Decidable (Fits limit trader sheet leg) := decidable_of_iff' _ (Exchanges.fits_iff _ _ _ _)

def exchanged (trader : Holder) (sheet : Holder → Nat) (leg : Leg Holder) : Holder → Nat :=
  exchange sheet leg.pool trader leg.paid leg.received

def swap (limit : Nat) (trader : Holder) (sheet : Holder → Nat) (quote : Quote Holder)
    (amount : Nat) : Option (Holder → Nat) :=
  if quote.den ≠ 0 ∧ Serves limit trader sheet (quote.leg amount) then
    some (exchanged trader sheet (quote.leg amount))
  else none

/-- A chain of exchanges, with the amount that leaves the last one. -/
def fill (limit : Nat) (trader : Holder) :
    (Holder → Nat) → Nat → List (Quote Holder) → Option (Nat × (Holder → Nat))
  | sheet, amount, [] => some (amount, sheet)
  | sheet, amount, quote :: rest =>
      if quote.den ≠ 0 ∧ Fits limit trader sheet (quote.leg amount) then
        fill limit trader (exchanged trader sheet (quote.leg amount)) (quote.payout amount) rest
      else none

/-- The rules of a market: the limit of a balance, the longest chain, and the
holders that are pools. -/
structure Rules (Holder : Type) where
  limit : Nat
  maxHops : Nat
  isPool : Holder → Bool

def fillOrder (rules : Rules Holder) (sheet : Holder → Nat) (order : Order Holder) :
    Option (Nat × (Holder → Nat)) :=
  if 1 ≤ order.quotes.length ∧ order.quotes.length ≤ rules.maxHops ∧
      ∀ quote ∈ order.quotes, rules.isPool quote.pool = true then
    (fill rules.limit order.trader sheet order.amount order.quotes).filter
      fun filled => order.minOut ≤ filled.1
  else none

def step (rules : Rules Holder) : Service.Step (Holder → Nat) (Request Holder) :=
  fun sheet request =>
    match request with
    | .swap trader quote amount =>
        if rules.isPool quote.pool = true then swap rules.limit trader sheet quote amount else none
    | .place order => (fillOrder rules sheet order).map Prod.snd

/-! ## What a request names -/

def Request.trader : Request Holder → Holder
  | .swap trader _ _ => trader
  | .place order => order.trader

def Request.pools : Request Holder → List Holder
  | .swap _ quote _ => [quote.pool]
  | .place order => order.quotes.map Quote.pool

/-- Nobody trades with oneself. -/
def Request.Apart (request : Request Holder) : Prop := ∀ pool ∈ request.pools, pool ≠ request.trader

def Request.paid : Request Holder → Nat
  | .swap _ _ amount => amount
  | .place order => order.amount

def Request.promised : Request Holder → Nat
  | .swap _ quote amount => quote.payout amount
  | .place order => order.minOut

section Fill

variable {limit : Nat} {trader : Holder} {sheet after : Holder → Nat} {amount out : Nat}
  {quote : Quote Holder} {rest : List (Quote Holder)}

theorem swap_eq_some : swap limit trader sheet quote amount = some after ↔
    (quote.den ≠ 0 ∧ Serves limit trader sheet (quote.leg amount)) ∧
      after = exchanged trader sheet (quote.leg amount) := by
  unfold swap
  split <;> simp_all [eq_comm]

theorem fill_cons : fill limit trader sheet amount (quote :: rest) = some (out, after) ↔
    (quote.den ≠ 0 ∧ Fits limit trader sheet (quote.leg amount)) ∧
      fill limit trader (exchanged trader sheet (quote.leg amount)) (quote.payout amount) rest =
        some (out, after) := by
  rw [fill]
  split <;> simp_all

end Fill

theorem fillOrder_eq_some {rules : Rules Holder} {sheet after : Holder → Nat}
    {order : Order Holder} {out : Nat} :
    fillOrder rules sheet order = some (out, after) ↔
      (1 ≤ order.quotes.length ∧ order.quotes.length ≤ rules.maxHops ∧
        ∀ quote ∈ order.quotes, rules.isPool quote.pool = true) ∧
      fill rules.limit order.trader sheet order.amount order.quotes = some (out, after) ∧
        order.minOut ≤ out := by
  unfold fillOrder
  split
  case isTrue admitted =>
    rw [and_iff_right admitted]
    simp [Option.filter_eq_some_iff]
  case isFalse refused => simp [refused]

theorem step_place_eq_some {rules : Rules Holder} {sheet after : Holder → Nat}
    {order : Order Holder} : step rules sheet (.place order) = some after ↔
      ∃ out, fillOrder rules sheet order = some (out, after) := by
  simp [step]

section Exchanged

variable {limit : Nat} {trader : Holder} {sheet : Holder → Nat} {quote : Quote Holder}
  {amount : Nat}

theorem exchanged_trader (distinct : quote.pool ≠ trader) :
    exchanged trader sheet (quote.leg amount) trader =
      sheet trader - amount + quote.payout amount := exchange_trader distinct

theorem exchanged_other {holder : Holder} (notPool : holder ≠ quote.pool)
    (notTrader : holder ≠ trader) :
    exchanged trader sheet (quote.leg amount) holder = sheet holder :=
  exchange_other notPool notTrader

omit [DecidableEq Holder] in
theorem serves_of_fits {leg : Leg Holder} (fits : Fits limit trader sheet leg) :
    Serves limit trader sheet leg := by
  have room := fits.traderRoom
  exact ⟨fits.traderCovers, fits.poolRoom, fits.poolCovers, by omega⟩

theorem total_exchanged [Fintype Holder] (distinct : quote.pool ≠ trader)
    (serves : Serves limit trader sheet (quote.leg amount)) :
    Balances.total (exchanged trader sheet (quote.leg amount)) = Balances.total sheet :=
  total_exchange distinct serves.traderCovers serves.poolCovers

end Exchanged

section Filled

variable {limit : Nat} {trader : Holder}

theorem fill_invariant {quotes : List (Quote Holder)} {inv : (Holder → Nat) → Prop}
    (keeps : ∀ sheet quote amount, quote ∈ quotes →
      Serves limit trader sheet (quote.leg amount) → inv sheet →
        inv (exchanged trader sheet (quote.leg amount))) :
    ∀ (rest : List (Quote Holder)) (sheet after : Holder → Nat) (amount out : Nat),
      (∀ quote ∈ rest, quote ∈ quotes) →
        fill limit trader sheet amount rest = some (out, after) → inv sheet → inv after := by
  intro rest
  induction rest with
  | nil =>
      intro sheet after amount out _ filled start
      cases filled
      exact start
  | cons quote rest ih =>
      intro sheet after amount out listed filled start
      obtain ⟨⟨_, fits⟩, later⟩ := fill_cons.mp filled
      exact ih _ _ _ _ (fun other member => listed other (List.mem_cons_of_mem _ member)) later
        (keeps sheet quote amount (listed quote List.mem_cons_self) (serves_of_fits fits) start)

/-- A chain moves the trader's balance by what it puts out minus what it puts in. -/
theorem fill_trader : ∀ (quotes : List (Quote Holder)) (sheet after : Holder → Nat)
    (amount out : Nat), (∀ quote ∈ quotes, quote.pool ≠ trader) →
      fill limit trader sheet amount quotes = some (out, after) →
        after trader + amount = sheet trader + out := by
  intro quotes
  induction quotes with
  | nil =>
      intro sheet after amount out _ filled
      cases filled
      rfl
  | cons quote rest ih =>
      intro sheet after amount out apart filled
      obtain ⟨⟨_, fits⟩, later⟩ := fill_cons.mp filled
      have covers : amount ≤ sheet trader := fits.traderCovers
      have apartLater : ∀ other ∈ rest, other.pool ≠ trader :=
        fun other member => apart other (List.mem_cons_of_mem _ member)
      have tail := ih _ _ _ _ apartLater later
      rw [exchanged_trader (apart quote List.mem_cons_self)] at tail
      omega

end Filled

section Step

variable {rules : Rules Holder} {sheet after : Holder → Nat} {request : Request Holder}

theorem step_invariant {inv : (Holder → Nat) → Prop}
    (keeps : ∀ sheet (quote : Quote Holder) amount, quote.pool ∈ request.pools →
      Serves rules.limit request.trader sheet (quote.leg amount) → inv sheet →
        inv (exchanged request.trader sheet (quote.leg amount)))
    (accepted : step rules sheet request = some after) (start : inv sheet) : inv after := by
  cases request with
  | swap trader quote amount =>
      simp only [step] at accepted
      split at accepted
      case isTrue =>
        obtain ⟨⟨_, serves⟩, rfl⟩ := swap_eq_some.mp accepted
        exact keeps sheet quote amount (List.mem_singleton.mpr rfl) serves start
      case isFalse => cases accepted
  | place order =>
      obtain ⟨out, filled⟩ := step_place_eq_some.mp accepted
      obtain ⟨_, filled, _⟩ := fillOrder_eq_some.mp filled
      refine fill_invariant ?_ order.quotes sheet after order.amount out (fun _ member => member)
        filled start
      intro sheet quote amount member serves
      exact keeps sheet quote amount (List.mem_map_of_mem member) serves

theorem step_total [Fintype Holder] (apart : request.Apart)
    (accepted : step rules sheet request = some after) :
    Balances.total after = Balances.total sheet := by
  have keeps : ∀ sheet' (quote : Quote Holder) amount, quote.pool ∈ request.pools →
      Serves rules.limit request.trader sheet' (quote.leg amount) →
        Balances.total sheet' = Balances.total sheet →
          Balances.total (exchanged request.trader sheet' (quote.leg amount)) =
            Balances.total sheet := by
    intro sheet' quote amount member serves same
    rw [total_exchanged (apart quote.pool member) serves, same]
  exact step_invariant keeps accepted rfl

theorem step_other {holder : Holder} (notTrader : holder ≠ request.trader)
    (notPool : holder ∉ request.pools) (accepted : step rules sheet request = some after) :
    after holder = sheet holder := by
  have keeps : ∀ sheet' (quote : Quote Holder) amount, quote.pool ∈ request.pools →
      Serves rules.limit request.trader sheet' (quote.leg amount) →
        sheet' holder = sheet holder →
          exchanged request.trader sheet' (quote.leg amount) holder = sheet holder := by
    intro sheet' quote amount member _ same
    have elsewhere : holder ≠ quote.pool := fun atPool => notPool (atPool ▸ member)
    rw [exchanged_other elsewhere notTrader, same]
  exact step_invariant keeps accepted rfl

/-- A trader gets at least what the request promised for what it put in. -/
theorem step_trader (apart : request.Apart) (accepted : step rules sheet request = some after) :
    sheet request.trader + request.promised ≤ after request.trader + request.paid := by
  cases request with
  | swap trader quote amount =>
      simp only [step] at accepted
      split at accepted
      case isTrue =>
        obtain ⟨⟨_, serves⟩, rfl⟩ := swap_eq_some.mp accepted
        have covers : amount ≤ sheet trader := serves.traderCovers
        have distinct := apart quote.pool (List.mem_singleton.mpr rfl)
        simp only [Request.trader, Request.promised, Request.paid] at distinct ⊢
        rw [exchanged_trader distinct]
        omega
      case isFalse => cases accepted
  | place order =>
      obtain ⟨out, filled⟩ := step_place_eq_some.mp accepted
      obtain ⟨_, filled, gate⟩ := fillOrder_eq_some.mp filled
      have moved : after order.trader + order.amount = sheet order.trader + out :=
        fill_trader order.quotes sheet after order.amount out
          (fun quote member => apart quote.pool (List.mem_map_of_mem member)) filled
      change sheet order.trader + order.minOut ≤ after order.trader + order.amount
      omega

end Step

/-! ## Runs -/

/-- What the requests of one holder put in, and what they promise it. -/
def paidBy (holder : Holder) (request : Request Holder) : Nat :=
  if request.trader = holder then request.paid else 0

def promisedTo (holder : Holder) (request : Request Holder) : Nat :=
  if request.trader = holder then request.promised else 0

section Runs

variable {rules : Rules Holder}

theorem run_total [Fintype Holder] (requests : List (Request Holder)) (sheet : Holder → Nat)
    (apart : ∀ request ∈ requests, request.Apart) :
    Balances.total (runAll (Service.after (step rules)) sheet requests) =
      Balances.total sheet := by
  have keeps : ∀ s request, Request.Apart request → Balances.total s = Balances.total sheet →
      Balances.total (Service.after (step rules) s request) = Balances.total sheet := by
    intro s request apart same
    cases answer : step rules s request with
    | none => rw [Service.after_of_none answer, same]
    | some after => rw [Service.after_of_some answer, step_total apart answer, same]
  exact runAll_invariant keeps requests sheet apart rfl

/-- However requests are mixed, a holder that is no pool ends with at least what its
accepted requests promised for what they put in. -/
theorem run_trader {holder : Holder} (requests : List (Request Holder)) (sheet : Holder → Nat)
    (apart : ∀ request ∈ requests, request.Apart ∧ holder ∉ request.pools) :
    sheet holder + tally (Service.after (step rules))
        (Service.ifAccepted (step rules) (promisedTo holder)) sheet requests ≤
      runAll (Service.after (step rules)) sheet requests holder +
        tally (Service.after (step rules)) (Service.ifAccepted (step rules) (paidBy holder)) sheet
          requests := by
  have moves : ∀ s request, Request.Apart request ∧ holder ∉ request.pools →
      s holder + Service.ifAccepted (step rules) (promisedTo holder) s request ≤
        Service.after (step rules) s request holder +
          Service.ifAccepted (step rules) (paidBy holder) s request := by
    intro s request allowed
    obtain ⟨apart, notPool⟩ := allowed
    cases answer : step rules s request with
    | none => simp [Service.ifAccepted, Service.after_of_none answer, answer]
    | some after =>
        rw [Service.ifAccepted, Service.ifAccepted, Service.after_of_some answer, answer,
          Option.isSome_some, if_pos rfl, if_pos rfl, promisedTo, paidBy]
        by_cases own : request.trader = holder
        · rw [if_pos own, if_pos own, ← own]
          exact step_trader apart answer
        · rw [if_neg own, if_neg own, step_other (Ne.symm own) notPool answer]
  exact runAll_measure_ge moves requests sheet apart

theorem run_other {holder : Holder} (requests : List (Request Holder)) (sheet : Holder → Nat)
    (unnamed : ∀ request ∈ requests, holder ≠ request.trader ∧ holder ∉ request.pools) :
    runAll (Service.after (step rules)) sheet requests holder = sheet holder := by
  have keeps : ∀ s (request : Request Holder),
      holder ≠ request.trader ∧ holder ∉ request.pools → s holder = sheet holder →
        Service.after (step rules) s request holder = sheet holder := by
    intro s request elsewhere same
    cases answer : step rules s request with
    | none => rw [Service.after_of_none answer, same]
    | some after =>
        rw [Service.after_of_some answer, step_other elsewhere.1 elsewhere.2 answer, same]
  exact runAll_invariant keeps requests sheet unnamed rfl

end Runs

section Local

variable {named : Set Holder} {limit : Nat} {trader : Holder} {sheet sheet' : Holder → Nat}
  {quote : Quote Holder} {amount : Nat}

theorem exchanged_local (isNamed : trader ∈ named) (poolNamed : quote.pool ∈ named)
    (alike : Set.EqOn sheet sheet' named) :
    Set.EqOn (exchanged trader sheet (quote.leg amount))
      (exchanged trader sheet' (quote.leg amount)) named := by
  intro holder member
  have traders : sheet trader = sheet' trader := alike isNamed
  have pools : sheet quote.pool = sheet' quote.pool := alike poolNamed
  have holders : sheet holder = sheet' holder := alike member
  simp only [exchanged, exchange, Balances.move, Function.update_apply, Quote.leg, traders, pools,
    holders]

omit [DecidableEq Holder] in
theorem serves_local (isNamed : trader ∈ named) (poolNamed : quote.pool ∈ named)
    (alike : Set.EqOn sheet sheet' named) :
    Serves limit trader sheet (quote.leg amount) ↔
      Serves limit trader sheet' (quote.leg amount) := by
  have traders : sheet trader = sheet' trader := alike isNamed
  have pools : sheet (quote.leg amount).pool = sheet' (quote.leg amount).pool := alike poolNamed
  rw [serves_iff, serves_iff, traders, pools]

omit [DecidableEq Holder] in
theorem fits_local (isNamed : trader ∈ named) (poolNamed : quote.pool ∈ named)
    (alike : Set.EqOn sheet sheet' named) :
    Fits limit trader sheet (quote.leg amount) ↔ Fits limit trader sheet' (quote.leg amount) := by
  have traders : sheet trader = sheet' trader := alike isNamed
  have pools : sheet (quote.leg amount).pool = sheet' (quote.leg amount).pool := alike poolNamed
  rw [Exchanges.fits_iff, Exchanges.fits_iff, traders, pools]

theorem fill_local (isNamed : trader ∈ named) : ∀ (quotes : List (Quote Holder))
    (sheet sheet' after : Holder → Nat) (amount out : Nat),
      (∀ quote ∈ quotes, quote.pool ∈ named) → Set.EqOn sheet sheet' named →
        fill limit trader sheet amount quotes = some (out, after) →
          ∃ after', fill limit trader sheet' amount quotes = some (out, after') ∧
            Set.EqOn after after' named := by
  intro quotes
  induction quotes with
  | nil =>
      intro sheet sheet' after amount out _ alike filled
      cases filled
      exact ⟨sheet', rfl, alike⟩
  | cons quote rest ih =>
      intro sheet sheet' after amount out pools alike filled
      obtain ⟨⟨rate, fits⟩, later⟩ := fill_cons.mp filled
      have poolNamed := pools quote List.mem_cons_self
      have restNamed : ∀ other ∈ rest, other.pool ∈ named :=
        fun other member => pools other (List.mem_cons_of_mem _ member)
      obtain ⟨after', filled', alike'⟩ :=
        ih _ _ _ _ _ restNamed (exchanged_local isNamed poolNamed alike) later
      exact ⟨after', fill_cons.mpr ⟨⟨rate, (fits_local isNamed poolNamed alike).mp fits⟩, filled'⟩,
        alike'⟩

theorem step_local {rules : Rules Holder} {request : Request Holder} {after : Holder → Nat}
    (isNamed : request.trader ∈ named) (poolsNamed : ∀ pool ∈ request.pools, pool ∈ named)
    (alike : Set.EqOn sheet sheet' named) (accepted : step rules sheet request = some after) :
    ∃ after', step rules sheet' request = some after' ∧ Set.EqOn after after' named := by
  cases request with
  | swap trader quote amount =>
      have poolNamed : quote.pool ∈ named := poolsNamed quote.pool (List.mem_singleton.mpr rfl)
      simp only [step] at accepted ⊢
      split at accepted
      case isTrue listed =>
        obtain ⟨⟨rate, serves⟩, rfl⟩ := swap_eq_some.mp accepted
        rw [if_pos listed]
        exact ⟨_, swap_eq_some.mpr ⟨⟨rate, (serves_local isNamed poolNamed alike).mp serves⟩, rfl⟩,
          exchanged_local isNamed poolNamed alike⟩
      case isFalse => cases accepted
  | place order =>
      obtain ⟨out, filled⟩ := step_place_eq_some.mp accepted
      obtain ⟨admitted, filled, gate⟩ := fillOrder_eq_some.mp filled
      have quotesNamed : ∀ quote ∈ order.quotes, quote.pool ∈ named :=
        fun quote member => poolsNamed quote.pool (List.mem_map_of_mem member)
      obtain ⟨after', filled', alike'⟩ :=
        fill_local isNamed order.quotes sheet sheet' after order.amount out quotesNamed alike filled
      exact ⟨after', step_place_eq_some.mpr ⟨out, fillOrder_eq_some.mpr ⟨admitted, filled', gate⟩⟩,
        alike'⟩

end Local

/-- Whether a request names accounts of a set only, or none of them. -/
def Request.Within (named : Set Holder) (request : Request Holder) : Prop :=
  request.trader ∈ named ∧ ∀ pool ∈ request.pools, pool ∈ named

def Request.Outside (named : Set Holder) (request : Request Holder) : Prop :=
  request.trader ∉ named ∧ ∀ pool ∈ request.pools, pool ∉ named

section Separate

variable {rules : Rules Holder} {named : Set Holder} {request : Request Holder}
  {sheet sheet' : Holder → Nat}

theorem after_outside (outside : request.Outside named) :
    named.domRestrict (Service.after (step rules) sheet request) = named.domRestrict sheet := by
  obtain ⟨notTrader, notPools⟩ := outside
  cases answer : step rules sheet request with
  | none => rw [Service.after_of_none answer]
  | some after =>
      rw [Service.after_of_some answer, Set.domRestrict_eq_domRestrict_iff]
      intro holder member
      refine step_other ?_ ?_ answer
      · exact fun same => notTrader (same ▸ member)
      · exact fun inPools => notPools holder inPools member

theorem after_within (within : request.Within named)
    (alike : named.domRestrict sheet = named.domRestrict sheet') :
    (step rules sheet request).isSome = (step rules sheet' request).isSome ∧
      named.domRestrict (Service.after (step rules) sheet request) =
        named.domRestrict (Service.after (step rules) sheet' request) := by
  obtain ⟨isNamed, poolsNamed⟩ := within
  rw [Set.domRestrict_eq_domRestrict_iff] at alike
  cases answer : step rules sheet request with
  | none =>
      have refused : step rules sheet' request = none := by
        cases answer' : step rules sheet' request with
        | none => rfl
        | some after =>
            obtain ⟨_, accepted, _⟩ := step_local isNamed poolsNamed alike.symm answer'
            rw [answer] at accepted
            cases accepted
      rw [Service.after_of_none answer, Service.after_of_none refused, refused,
        Set.domRestrict_eq_domRestrict_iff]
      exact ⟨rfl, alike⟩
  | some after =>
      obtain ⟨after', accepted, alike'⟩ := step_local isNamed poolsNamed alike answer
      rw [Service.after_of_some answer, Service.after_of_some accepted, accepted,
        Set.domRestrict_eq_domRestrict_iff]
      exact ⟨rfl, alike'⟩

/-- What happens on a set of accounts is what the requests on it bring about: the
others, which name none of its accounts, make no difference. -/
theorem run_separate {own : Request Holder → Bool} (requests : List (Request Holder))
    (mine : ∀ request ∈ requests, own request = true → request.Within named)
    (others : ∀ request ∈ requests, own request = false → request.Outside named) :
    Service.answersTo (step rules) own sheet requests =
        Service.answersTo (step rules) own sheet (requests.filter own) ∧
      Set.EqOn (runAll (Service.after (step rules)) sheet requests)
        (runAll (Service.after (step rules)) sheet (requests.filter own)) named := by
  have allowed : ∀ request ∈ requests, (own request = true → request.Within named) ∧
      (own request = false → request.Outside named) :=
    fun request member => ⟨mine request member, others request member⟩
  rw [← Set.domRestrict_eq_domRestrict_iff]
  exact Service.run_alone named.domRestrict
    (fun _ _ separate notOwn => after_outside (separate.2 notOwn))
    (fun _ _ _ separate isOwn alike => after_within (separate.1 isOwn) alike) requests sheet sheet
    allowed rfl

end Separate

end Market
