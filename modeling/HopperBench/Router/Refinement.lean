import HopperBench.Router.Stops

/-!
# A route over the real venue computes the rate fold

`Feasible` lists what a route needs: a payload that parses, the accounts and
their owners, the runner's rate fold, and balances on which the fold's pairs
can be replayed.  The Pinocchio router over the venue returns `Ok` exactly then,
and `Outcome` is the ledger it leaves.
-/

set_option autoImplicit false

namespace HopperBench.Refinement

open StoppingRun HopperBench.Solana HopperBench.RouteWire HopperBench.MeasuredSwap
  HopperBench.PinocchioRouter HopperBench.RouterBench HopperBench.Venue HopperBench.Stops

def routeLegs (pools : List AccountView) (hops : List (UInt64 × UInt64)) :
    List (Exchanges.Leg Address) :=
  List.zipWith (fun pool hop => leg pool.address hop.1 hop.2) pools hops

/-- Everything `EXECUTE_ROUTE` on `payload` needs to succeed. -/
structure Feasible (accounts : List AccountView) (payload : List UInt8) (ledger : Ledger)
    (route : Route) (user : AccountView) (pools : List AccountView)
    (rates : List (UInt32 × UInt32)) (hops : List (UInt64 × UInt64)) (out : UInt64) : Prop where
  parsed : PinocchioRouter.parseRoute payload = .ok route
  enough : 1 + 2 * route.hopCount.toNat ≤ accounts.length
  userFound : accounts[0]? = some user
  userWritable : user.isWritable = true
  venues : ∀ i < route.hopCount.toNat, ∃ ammProgram, accounts[1 + 2 * i]? = some ammProgram ∧
    ammProgram.address = PinocchioRouter.mockAmmProgramId
  poolCount : pools.length = route.hopCount.toNat
  poolsFound : ∀ i (inside : i < pools.length), accounts[2 + 2 * i]? = some pools[i]
  poolsWritable : ∀ pool ∈ pools, pool.isWritable = true
  poolsOwned : ∀ pool ∈ pools, (ledger pool.address).owner = PinocchioRouter.mockAmmProgramId
  rateCount : rates.length = route.hopCount.toNat
  ratesRead : ∀ i (inside : i < rates.length), PinocchioRouter.hopRate route i = .ok rates[i]
  folded : expectedHops route.initialAmount rates = .ok hops
  replayable : Exchanges.Replayable (2 ^ 64) user.address ledger.balances (routeLegs pools hops)
  lastOut : hops.getLast?.map Prod.snd = some out
  gate : route.minOut ≤ out

/-- What a successful route leaves. -/
structure Outcome (ledger final : Ledger) (route : Route) (user : AccountView)
    (pools : List AccountView) (hops : List (UInt64 × UInt64)) (out : UInt64) : Prop where
  userEnd : (final.balances user.address : Int) =
    ledger.balances user.address - route.initialAmount.toNat + out.toNat
  poolEnd : ∀ a, a ≠ user.address → (final.balances a : Int) = ledger.balances a +
    Exchanges.paidTo a (routeLegs pools hops) - Exchanges.receivedFrom a (routeLegs pools hops)
  untouched : ∀ a, a ≠ user.address → (∀ pool ∈ pools, pool.address ≠ a) → final a = ledger a
  kept : ∀ a, (final a).owner = (ledger a).owner ∧ (final a).data = (ledger a).data

section Lists

variable {accounts : List AccountView} {route : Route} {stops : List Stop}

theorem legs_eq_routeLegs (stops : List Stop) (hops : List (UInt64 × UInt64)) :
    legs stops hops = routeLegs (stops.map Stop.pool) hops := by
  rw [legs, routeLegs, List.zipWith_map_left]

theorem itinerary_rates (itinerary : Itinerary accounts route stops)
    {rates : List (UInt32 × UInt32)} (rateCount : rates.length = route.hopCount.toNat)
    (ratesRead : ∀ i (inside : i < rates.length),
      PinocchioRouter.hopRate route i = .ok rates[i]) : stops.map Stop.rate = rates := by
  have count := itinerary.count
  apply List.ext_getElem
  · rw [List.length_map]
    omega
  · intro i inStops inRates
    rw [List.length_map] at inStops
    rw [List.getElem_map]
    exact Except.ok.inj ((itinerary.rateRead i inStops).symm.trans (ratesRead i inRates))

theorem itinerary_pools (itinerary : Itinerary accounts route stops)
    {pools : List AccountView} (poolCount : pools.length = route.hopCount.toNat)
    (poolsFound : ∀ i (inside : i < pools.length), accounts[2 + 2 * i]? = some pools[i]) :
    stops.map Stop.pool = pools := by
  have count := itinerary.count
  apply List.ext_getElem
  · rw [List.length_map]
    omega
  · intro i inStops inPools
    rw [List.length_map] at inStops
    rw [List.getElem_map]
    exact Option.some.inj ((itinerary.poolFound i inStops).symm.trans (poolsFound i inPools))

theorem itinerary_apart (itinerary : Itinerary accounts route stops) {a : Address}
    (apart : ∀ i < route.hopCount.toNat, ∀ pool, accounts[2 + 2 * i]? = some pool →
      pool.address ≠ a) : ∀ stop ∈ stops, stop.pool.address ≠ a := by
  intro stop member
  obtain ⟨i, inside, rfl⟩ := List.getElem_of_mem member
  exact apart i (by rw [← itinerary.count]; exact inside) _ (itinerary.poolFound i inside)

theorem itinerary_venues (itinerary : Itinerary accounts route stops) {ledger : Ledger}
    (usable : ∀ stop ∈ stops, Usable ledger stop) :
    ∀ i < route.hopCount.toNat, ∃ ammProgram, accounts[1 + 2 * i]? = some ammProgram ∧
      ammProgram.address = PinocchioRouter.mockAmmProgramId := by
  intro i inCount
  have inside : i < stops.length := by rw [itinerary.count]; exact inCount
  exact ⟨_, itinerary.programFound i inside, (usable _ (List.getElem_mem inside)).venueNamed⟩

theorem itinerary_nonempty (itinerary : Itinerary accounts route stops)
    {payload : List UInt8} {hops : List (UInt64 × UInt64)}
    (parsed : PinocchioRouter.parseRoute payload = .ok route)
    (count : hops.length = (stops.map Stop.rate).length) : hops ≠ [] := by
  obtain ⟨accepted, routeExact⟩ := PinocchioRouter.parseRoute_ok_iff.mp parsed
  have positive : 1 ≤ route.hopCount.toNat := by
    rw [routeExact]
    exact accepted.2.1
  have stopCount := itinerary.count
  rw [List.length_map] at count
  apply List.ne_nil_of_length_pos
  omega

theorem folds_length : ∀ (rates : List (UInt32 × UInt32)) (amount : UInt64)
    (hops : List (UInt64 × UInt64)), Folds amount rates hops → hops.length = rates.length := by
  intro rates
  induction rates with
  | nil =>
      intro amount hops noHops
      obtain rfl : hops = [] := noHops
      rfl
  | cons rate rest ih =>
      intro amount hops folds
      obtain ⟨out, tail, _, rfl, tailFolds⟩ := folds
      rw [List.length_cons, List.length_cons, ih out tail tailFolds]

/-- What flows into the hops and what flows out differ by the two ends. -/
theorem folds_telescope : ∀ (stops : List Stop) (amount : UInt64) (hops : List (UInt64 × UInt64)),
    Folds amount (stops.map Stop.rate) hops →
      amount.toNat + ((legs stops hops).map Exchanges.Leg.received).sum =
        ((legs stops hops).map Exchanges.Leg.paid).sum + (finalOut amount hops).toNat := by
  intro stops
  induction stops with
  | nil =>
      intro amount hops noHops
      obtain rfl : hops = [] := noHops
      simp [legs, finalOut]
  | cons stop rest ih =>
      intro amount hops folds
      obtain ⟨out, tail, _, rfl, tailFolds⟩ := folds
      have tailSum := ih out tail tailFolds
      rw [legs_cons]
      simp only [leg_paid, leg_received, List.map_cons, List.sum_cons, finalOut]
      omega

theorem finalOut_of_getLast : ∀ (hops : List (UInt64 × UInt64)) (amount out : UInt64),
    hops.getLast?.map Prod.snd = some out → finalOut amount hops = out := by
  intro hops
  induction hops with
  | nil => intro amount out impossible; simp at impossible
  | cons hop rest ih =>
      intro amount out last
      cases rest with
      | nil => simpa [finalOut] using last
      | cons next more =>
          rw [List.getLast?_cons_cons] at last
          exact ih hop.2 out last

theorem getLast_finalOut {hops : List (UInt64 × UInt64)} (amount : UInt64) (nonempty : hops ≠ []) :
    hops.getLast?.map Prod.snd = some (finalOut amount hops) := by
  rw [List.getLast?_eq_some_getLast nonempty, Option.map_some, Option.some.injEq]
  symm
  apply finalOut_of_getLast
  rw [List.getLast?_eq_some_getLast nonempty, Option.map_some]

end Lists

section Ended

variable {user : Address}

theorem ended_kept : ∀ (stops : List Stop) (hops : List (UInt64 × UInt64)) (m : Machine)
    (a : Address), ((ended user m stops hops).ledger a).owner = (m.ledger a).owner ∧
      ((ended user m stops hops).ledger a).data = (m.ledger a).data := by
  intro stops
  induction stops with
  | nil => intro hops m a; simp [ended]
  | cons stop rest ih =>
      intro hops m a
      cases hops with
      | nil => simp [ended]
      | cons hop tail =>
          obtain ⟨owner, data⟩ := ih tail _ a
          rw [ended, owner, data]
          simp [answered]

theorem ended_untouched {a : Address} (notUser : a ≠ user) : ∀ (stops : List Stop)
    (hops : List (UInt64 × UInt64)) (m : Machine), (∀ stop ∈ stops, stop.pool.address ≠ a) →
      (ended user m stops hops).ledger a = m.ledger a := by
  intro stops
  induction stops with
  | nil => intro hops m _; simp [ended]
  | cons stop rest ih =>
      intro hops m elsewhere
      cases hops with
      | nil => simp [ended]
      | cons hop tail =>
          have notPool : a ≠ stop.pool.address := (elsewhere stop (by simp)).symm
          rw [ended, ih tail _ fun other member => elsewhere other (by simp [member])]
          exact settled_other notPool notUser

theorem ended_balances : ∀ (stops : List Stop) (hops : List (UInt64 × UInt64)) (m : Machine),
    (∀ stop ∈ stops, stop.pool.address ≠ user) → (∀ stop ∈ stops, Usable m.ledger stop) →
      Exchanges.Replayable (2 ^ 64) user m.ledger.balances (legs stops hops) →
        (ended user m stops hops).ledger.balances =
          Exchanges.replay user m.ledger.balances (legs stops hops) := by
  intro stops
  induction stops with
  | nil => intro hops m _ _ _; simp [ended, legs, Exchanges.replay]
  | cons stop rest ih =>
      intro hops m apart usable replayable
      cases hops with
      | nil => simp [ended, legs, Exchanges.replay]
      | cons hop tail =>
          obtain ⟨fits, later⟩ := replayable
          have distinct := apart stop (by simp)
          have admits := admits_of_fits (usable stop (by simp)).poolOwned fits
          have settledSheet := balances_settled distinct admits
          have restUsable : ∀ other ∈ rest, Usable
              (settled m.ledger stop.pool.address user hop.1 hop.2) other := by
            intro other member
            exact usable_settled.mpr (usable other (by simp [member]))
          have tailSheet := ih tail (answered m (swapCall stop.pool.address user stop.rate hop.1)
            (settled m.ledger stop.pool.address user hop.1 hop.2))
            (fun other member => apart other (by simp [member])) restUsable
          simp only [answered, settledSheet] at tailSheet
          exact tailSheet later

end Ended

theorem legs_apart {a : Address} : ∀ (stops : List Stop) (hops : List (UInt64 × UInt64)),
    (∀ stop ∈ stops, stop.pool.address ≠ a) → ∀ other ∈ legs stops hops, other.pool ≠ a := by
  intro stops
  induction stops with
  | nil => intro hops _ other member; simp [legs] at member
  | cons stop rest ih =>
      intro hops apart other member
      cases hops with
      | nil => simp [legs] at member
      | cons hop tail =>
          rw [legs_cons, List.mem_cons] at member
          rcases member with rfl | inRest
          · exact apart stop (by simp)
          · exact ih tail (fun other member => apart other (by simp [member])) other inRest

theorem outcome_ended {route : Route} {user : AccountView} {ledger : Ledger} {out : UInt64}
    (stops : List Stop) (hops : List (UInt64 × UInt64))
    (apart : ∀ stop ∈ stops, stop.pool.address ≠ user.address)
    (usable : ∀ stop ∈ stops, Usable ledger stop)
    (replayable : Exchanges.Replayable (2 ^ 64) user.address ledger.balances (legs stops hops))
    (folds : Folds route.initialAmount (stops.map Stop.rate) hops)
    (outExact : out = finalOut route.initialAmount hops) :
    Outcome ledger (ended user.address (Machine.start ledger) stops hops).ledger route user
      (stops.map Stop.pool) hops out := by
  have sheet : (ended user.address (Machine.start ledger) stops hops).ledger.balances =
      Exchanges.replay user.address ledger.balances (legs stops hops) :=
    ended_balances stops hops (Machine.start ledger) apart usable replayable
  have legsApart := legs_apart stops hops apart
  refine ⟨?_, ?_, ?_, ?_⟩
  · have moved := Exchanges.replay_trader _ _ legsApart replayable
    have telescoped := folds_telescope stops _ hops folds
    rw [sheet, outExact]
    omega
  · intro a notUser
    have moved := Exchanges.replay_holder notUser _ _ legsApart replayable
    rw [sheet, ← legs_eq_routeLegs]
    omega
  · intro a notUser elsewhere
    apply ended_untouched notUser
    intro stop member
    exact elsewhere stop.pool (List.mem_map_of_mem member)
  · intro a
    exact ended_kept stops hops (Machine.start ledger) a

section Route

variable {accounts : List AccountView} {payload : List UInt8} {ledger : Ledger} {route : Route}
  {user : AccountView} {stops : List Stop}

theorem processExecuteRoute_walk_eq_ok (parsed : PinocchioRouter.parseRoute payload = .ok route)
    (enough : 1 + 2 * route.hopCount.toNat ≤ accounts.length)
    (userFound : accounts[0]? = some user) (itinerary : Itinerary accounts route stops)
    {final : Machine} :
    (PinocchioRouter.processExecuteRoute venue accounts payload).run (Machine.start ledger) =
        (.ok (), final) ↔
      user.isWritable = true ∧ ∃ totalOut, (walk venue user stops route.initialAmount).run
        (Machine.start ledger) = (.ok totalOut, final) ∧ route.minOut ≤ totalOut := by
  have sameLoop : (Exec.countUp (PinocchioRouter.hopStep venue accounts route user)
      route.hopCount.toNat 0 route.initialAmount).run (Machine.start ledger) =
        (walk venue user stops route.initialAmount).run (Machine.start ledger) :=
    loop_eq_walk itinerary _ 0 _ _ (by rw [Nat.zero_add, itinerary.count])
  rw [PinocchioRouter.processExecuteRoute_eq_ok]
  constructor
  · intro accepted
    obtain ⟨route', user', totalOut, parsed', _, userFound', writable, loop, gate⟩ := accepted
    obtain rfl : route = route' := Except.ok.inj (parsed.symm.trans parsed')
    obtain rfl : user = user' := Option.some.inj (userFound.symm.trans userFound')
    exact ⟨writable, totalOut, sameLoop.symm.trans loop, gate⟩
  · intro conditions
    obtain ⟨writable, totalOut, walked, gate⟩ := conditions
    exact ⟨route, user, totalOut, parsed, enough, userFound, writable, sameLoop.trans walked, gate⟩

theorem feasible_of_ok (apart : PoolsApart accounts (1 :: payload)) {final : Machine}
    (ok : (PinocchioRouter.processExecuteRoute venue accounts payload).run (Machine.start ledger) =
      (.ok (), final)) :
    ∃ route user pools rates hops out,
      Feasible accounts payload ledger route user pools rates hops out ∧
        Outcome ledger final.ledger route user pools hops out := by
  obtain ⟨route, user, _, parsed, enough, userFound, _⟩ :=
    PinocchioRouter.processExecuteRoute_eq_ok.mp ok
  obtain ⟨stops, itinerary⟩ := exists_itinerary parsed enough
  have stopsApart := itinerary_apart itinerary (apart payload route user rfl parsed userFound)
  obtain ⟨writable, totalOut, walked, gate⟩ :=
    (processExecuteRoute_walk_eq_ok parsed enough userFound itinerary).mp ok
  obtain ⟨usable, hops, folds, replayable, totalExact, finalExact⟩ :=
    (walk_eq_ok stops _ _ _ _ stopsApart).mp walked
  have nonempty : hops ≠ [] := itinerary_nonempty itinerary parsed (folds_length _ _ _ folds)
  refine ⟨route, user, stops.map Stop.pool, stops.map Stop.rate, hops, totalOut, ?_, ?_⟩
  · refine ⟨parsed, enough, userFound, writable, itinerary_venues itinerary usable,
      by rw [List.length_map, itinerary.count], ?_, ?_, ?_,
      by rw [List.length_map, itinerary.count], ?_, expectedHops_eq_ok.mpr folds, ?_, ?_, gate⟩
    · intro i inside
      rw [List.length_map] at inside
      rw [List.getElem_map]
      exact itinerary.poolFound i inside
    · intro pool member
      obtain ⟨stop, inStops, rfl⟩ := List.mem_map.mp member
      exact (usable stop inStops).poolWritable
    · intro pool member
      obtain ⟨stop, inStops, rfl⟩ := List.mem_map.mp member
      exact (usable stop inStops).poolOwned
    · intro i inside
      rw [List.length_map] at inside
      rw [List.getElem_map]
      exact itinerary.rateRead i inside
    · rw [← legs_eq_routeLegs]
      exact replayable
    · rw [totalExact]
      exact getLast_finalOut _ nonempty
  · rw [finalExact]
    exact outcome_ended stops hops stopsApart usable replayable folds totalExact

theorem ok_of_feasible (apart : PoolsApart accounts (1 :: payload)) {pools : List AccountView}
    {rates : List (UInt32 × UInt32)} {hops : List (UInt64 × UInt64)} {out : UInt64}
    (feasible : Feasible accounts payload ledger route user pools rates hops out) :
    ∃ final, (PinocchioRouter.processExecuteRoute venue accounts payload).run
      (Machine.start ledger) = (.ok (), final) := by
  obtain ⟨stops, itinerary⟩ := exists_itinerary feasible.parsed feasible.enough
  have poolsExact := itinerary_pools itinerary feasible.poolCount feasible.poolsFound
  have ratesExact := itinerary_rates itinerary feasible.rateCount feasible.ratesRead
  have stopsApart := itinerary_apart itinerary
    (apart payload route user rfl feasible.parsed feasible.userFound)
  have usable : ∀ stop ∈ stops, Usable ledger stop := by
    intro stop member
    have poolMember : stop.pool ∈ pools := by
      rw [← poolsExact]
      exact List.mem_map_of_mem member
    obtain ⟨i, inside, rfl⟩ := List.getElem_of_mem member
    obtain ⟨ammProgram, found, named⟩ :=
      feasible.venues i (by rw [← itinerary.count]; exact inside)
    obtain rfl : stops[i].ammProgram = ammProgram :=
      Option.some.inj ((itinerary.programFound i inside).symm.trans found)
    exact ⟨named, feasible.poolsWritable _ poolMember, feasible.poolsOwned _ poolMember⟩
  have folds : Folds route.initialAmount (stops.map Stop.rate) hops := by
    rw [ratesExact]
    exact expectedHops_eq_ok.mp feasible.folded
  have replayable : Exchanges.Replayable (2 ^ 64) user.address ledger.balances
      (legs stops hops) := by
    rw [legs_eq_routeLegs, poolsExact]
    exact feasible.replayable
  have outExact := finalOut_of_getLast hops route.initialAmount out feasible.lastOut
  have walked := (walk_eq_ok stops route.initialAmount out (Machine.start ledger) _ stopsApart).mpr
    ⟨usable, hops, folds, replayable, outExact.symm, rfl⟩
  exact ⟨_, (processExecuteRoute_walk_eq_ok feasible.parsed feasible.enough feasible.userFound
    itinerary).mpr ⟨feasible.userWritable, out, walked, feasible.gate⟩⟩

end Route

/-- `EXECUTE_ROUTE` over the real venue succeeds exactly when the route is
feasible, and then leaves the outcome of the pairs of the rate fold. -/
theorem route_refines_rate_fold (programId : Address) (accounts : List AccountView)
    (data : List UInt8) (ledger : Ledger) (apart : PoolsApart accounts data) :
    let run := (PinocchioRouter.processInstruction (calleeOf MockAmm.processInstruction) programId
      accounts data).run (Machine.start ledger)
    ((∃ final, run = (.ok (), final)) ↔ ∃ payload route user pools rates hops out,
      data = 1 :: payload ∧ Feasible accounts payload ledger route user pools rates hops out) ∧
    (∀ final, run = (.ok (), final) → ∃ payload route user pools rates hops out,
      data = 1 :: payload ∧ Feasible accounts payload ledger route user pools rates hops out ∧
        Outcome ledger final.ledger route user pools hops out) := by
  intro run
  have outcome : ∀ final, run = (.ok (), final) → ∃ payload route user pools rates hops out,
      data = 1 :: payload ∧ Feasible accounts payload ledger route user pools rates hops out ∧
        Outcome ledger final.ledger route user pools hops out := by
    intro final ok
    obtain ⟨payload, rfl, executed⟩ := PinocchioRouter.processInstruction_eq_ok.mp ok
    obtain ⟨route, user, pools, rates, hops, out, feasible, left⟩ :=
      feasible_of_ok apart executed
    exact ⟨payload, route, user, pools, rates, hops, out, rfl, feasible, left⟩
  refine ⟨?_, outcome⟩
  constructor
  · intro accepted
    obtain ⟨final, ok⟩ := accepted
    obtain ⟨payload, route, user, pools, rates, hops, out, same, feasible, _⟩ := outcome final ok
    exact ⟨payload, route, user, pools, rates, hops, out, same, feasible⟩
  · intro conditions
    obtain ⟨payload, route, user, pools, rates, hops, out, same, feasible⟩ := conditions
    subst same
    obtain ⟨final, executed⟩ := ok_of_feasible apart feasible
    exact ⟨final, PinocchioRouter.processInstruction_eq_ok.mpr ⟨payload, rfl, executed⟩⟩

theorem route_refines_two_hops :
    let run := (PinocchioRouter.processInstruction (calleeOf MockAmm.processInstruction)
      (fun _ => 0xB2) (twoHopUser :: twoHopPairs) (1 :: twoHopPayload)).run
        (Machine.start twoHopLedger)
    ∃ final payload route user pools rates hops out, run = (.ok (), final) ∧
      1 :: twoHopPayload = 1 :: payload ∧
      Feasible (twoHopUser :: twoHopPairs) payload twoHopLedger route user pools rates hops out ∧
      Outcome twoHopLedger final.ledger route user pools hops out := by
  intro run
  have ok : ((PinocchioRouter.processInstruction (calleeOf MockAmm.processInstruction)
      (fun _ => 0xB2) (twoHopUser :: twoHopPairs) (1 :: twoHopPayload)).run
        (Machine.start twoHopLedger)).1 = .ok () := by
    decide +kernel
  have refined := route_refines_rate_fold (fun _ => 0xB2) (twoHopUser :: twoHopPairs)
    (1 :: twoHopPayload) twoHopLedger twoHop_apart
  obtain ⟨payload, route, user, pools, rates, hops, out, outcome⟩ :=
    refined.2 _ (Exec.run_eq_of_fst ok)
  exact ⟨_, payload, route, user, pools, rates, hops, out, Exec.run_eq_of_fst ok, outcome⟩

end HopperBench.Refinement
