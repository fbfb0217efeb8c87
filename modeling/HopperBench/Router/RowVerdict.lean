import HopperBench.Library.Sweep
import HopperBench.Router.RouteOrders
import HopperBench.Solana.Harness

/-!
# The verdict on a table row

A row of any router is accepted exactly when its route succeeded and left the
row's end.  For the routers of this workspace over the real venue the verdict
depends on the row alone: `Sound` is arithmetic on its rates, its gate and its
expected output, and neither the seed, the harness nor the framework enters.
-/

set_option autoImplicit false

namespace HopperBench.RowVerdict

open StoppingRun CheckedWord HopperBench.Solana HopperBench.RouteWire HopperBench.RouterBench
  HopperBench.RouteRun HopperBench.RouteOrders HopperBench.Harness

/-- The route of a row succeeds and leaves the end its table entry names. -/
def RowPasses (mollusk : Mollusk)
    (router : Address → List AccountView → List UInt8 → Program Unit) (spec : ProgramSpec)
    (routeCase : RouteCase) (seed : Fin 8) : Prop :=
  ∃ after hops, answerTo router (mollusk.fixture spec routeCase seed) = .ok after ∧
    RowEnd routeCase seed hops routeCase.expectedOut after

theorem plainAdd_eq_ok {a b c : UInt64} :
    plainAdd a b = .ok c ↔ a.toNat + b.toNat < 2 ^ 64 ∧ c = a + b := by
  rw [plainAdd, ← checkedAdd_eq_some_add]
  cases checkedAdd a b <;> simp

theorem plainSub_eq_ok {a b c : UInt64} : plainSub a b = .ok c ↔ c.toNat + b.toNat = a.toNat := by
  rw [plainSub, ← checkedSub_eq_some]
  cases checkedSub a b <;> simp

section Checks

variable {mollusk : Mollusk} {spec : ProgramSpec} {routeCase : RouteCase} {seed : Fin 8}
  {resulting : List (Address × Account)} {final : Ledger}

theorem checkPools_cons {hop : Nat} {pair : UInt64 × UInt64} {rest : List (UInt64 × UInt64)}
    (read : lamportsFor mollusk resulting (poolAddress seed hop) =
      .ok (final (poolAddress seed hop)).lamports)
    (checked : checkPools mollusk spec routeCase seed resulting hop (pair :: rest) = .ok ()) :
    100000000000 + pair.1.toNat < 2 ^ 64 ∧
      final.balances (poolAddress seed hop) + pair.2.toNat = 100000000000 + pair.1.toNat ∧
      checkPools mollusk spec routeCase seed resulting (hop + 1) rest = .ok () := by
  have started : poolLamports.toNat = 100000000000 := rfl
  rw [checkPools, read] at checked
  obtain ⟨_, found, checked⟩ := Sweep.bind_eq_ok.mp checked
  cases found
  obtain ⟨_, credit, afterCredit⟩ := Sweep.bind_eq_ok.mp checked
  obtain ⟨room, rfl⟩ := plainAdd_eq_ok.mp credit
  obtain ⟨expected, debit, compared⟩ := Sweep.bind_eq_ok.mp afterCredit
  have left := plainSub_eq_ok.mp debit
  rw [started] at room
  rw [UInt64.toNat_add, started, Nat.mod_eq_of_lt room] at left
  split at compared
  case isTrue => cases compared
  case isFalse same =>
    have balance : (final (poolAddress seed hop)).lamports = expected := not_not.mp same
    rw [Ledger.balances, balance]
    exact ⟨room, left, compared⟩

theorem pools_of_checkPools {all : List (UInt64 × UInt64)}
    (reads : ∀ i < all.length, lamportsFor mollusk resulting (poolAddress seed i) =
      .ok (final (poolAddress seed i)).lamports) :
    ∀ (hops : List (UInt64 × UInt64)) (hop : Nat), all.drop hop = hops →
      checkPools mollusk spec routeCase seed resulting hop hops = .ok () →
        ∀ i (inside : i < all.length), hop ≤ i → 100000000000 + all[i].1.toNat < 2 ^ 64 ∧
          final.balances (poolAddress seed i) + all[i].2.toNat =
            100000000000 + all[i].1.toNat := by
  intro hops
  induction hops with
  | nil =>
      intro hop left _ i inside later
      have short := List.drop_eq_nil_iff.mp left
      omega
  | cons pair rest ih =>
      intro hop left checked i inside later
      have here : hop < all.length := by omega
      rw [List.drop_eq_getElem_cons here, List.cons.injEq] at left
      obtain ⟨rfl, restLeft⟩ := left
      obtain ⟨room, balance, restChecked⟩ := checkPools_cons (reads hop here) checked
      rcases Nat.eq_or_lt_of_le later with rfl | after
      · exact ⟨room, balance⟩
      · exact ih (hop + 1) restLeft restChecked i inside after

theorem rowEnd_of_checkRow
    (userRead : lamportsFor mollusk resulting (sharedUser seed) =
      .ok (final (sharedUser seed)).lamports)
    (poolReads : ∀ i < routeCase.rates.length,
      lamportsFor mollusk resulting (poolAddress seed i) =
        .ok (final (poolAddress seed i)).lamports)
    (checked : checkRow mollusk spec routeCase seed resulting = .ok ()) :
    ∃ hops, RowEnd routeCase seed hops routeCase.expectedOut final := by
  have kept : plainSub userLamports initialAmount = .ok 9000000000 := by decide +kernel
  have keptNat : (9000000000 : UInt64).toNat = 9000000000 := rfl
  rw [checkRow] at checked
  obtain ⟨hops, folding, checked⟩ := Sweep.bind_eq_ok.mp checked
  have folded : expectedHops initialAmount routeCase.rates = .ok hops := by
    cases fold : expectedHops initialAmount routeCase.rates with
    | error message => rw [fold] at folding; cases folding
    | ok pairs => rw [fold] at folding; cases folding; rfl
  have hopCount : hops.length = routeCase.rates.length :=
    Refinement.folds_length _ _ _ (expectedHops_eq_ok.mp folded)
  cases lastFound : hops.getLast? with
  | none => rw [lastFound] at checked; cases checked
  | some last =>
      simp only [lastFound] at checked
      split at checked
      case isTrue => cases checked
      case isFalse tabled =>
        have lastOut : last.2 = routeCase.expectedOut := not_not.mp tabled
        rw [userRead, kept] at checked
        obtain ⟨userAfter, found, checked⟩ := Sweep.bind_eq_ok.mp checked
        cases found
        obtain ⟨_, found, checked⟩ := Sweep.bind_eq_ok.mp checked
        cases found
        obtain ⟨expected, credit, checked⟩ := Sweep.bind_eq_ok.mp checked
        obtain ⟨room, rfl⟩ := plainAdd_eq_ok.mp credit
        split at checked
        case isTrue => cases checked
        case isFalse same =>
          have balance : (final (sharedUser seed)).lamports = 9000000000 + last.2 :=
            not_not.mp same
          have pools := pools_of_checkPools (fun i inside => poolReads i (by omega)) hops 0
            List.drop_zero checked
          refine ⟨hops, folded, by rw [lastFound, Option.map_some, lastOut], hopCount, ?_,
            fun i inside => (pools i inside (Nat.zero_le i)).1,
            fun i inside => (pools i inside (Nat.zero_le i)).2⟩
          rw [Ledger.balances, balance, UInt64.toNat_add, Nat.mod_eq_of_lt room, keptNat, lastOut]

end Checks

section Row

variable {mollusk : Mollusk} {router : Address → List AccountView → List UInt8 → Program Unit}
  {spec : ProgramSpec} {routeCase : RouteCase} {seed : Fin 8}

theorem lamportsFor_user {final : Ledger} :
    lamportsFor mollusk
        ((mollusk.fixture spec routeCase seed).2.map fun entry => (entry.1, final entry.1))
        (sharedUser seed) = .ok (final (sharedUser seed)).lamports :=
  lamportsFor_resulting sharedUser_mem

theorem lamportsFor_pool {final : Ledger} {hop : Nat} (inside : hop < routeCase.rates.length) :
    lamportsFor mollusk
        ((mollusk.fixture spec routeCase seed).2.map fun entry => (entry.1, final entry.1))
        (poolAddress seed hop) = .ok (final (poolAddress seed hop)).lamports :=
  lamportsFor_resulting (poolAddress_mem inside)

theorem checkRow_eq_ok {final : Ledger} :
    checkRow mollusk spec routeCase seed
        ((mollusk.fixture spec routeCase seed).2.map fun entry => (entry.1, final entry.1)) =
          .ok () ↔
      ∃ hops, RowEnd routeCase seed hops routeCase.expectedOut final := by
  constructor
  · intro checked
    exact rowEnd_of_checkRow lamportsFor_user (fun _ inside => lamportsFor_pool inside) checked
  · intro left
    obtain ⟨hops, rowEnd⟩ := left
    exact (checkRow_of_rowEnd rowEnd lamportsFor_user fun i inside =>
      lamportsFor_pool (by rw [← rowEnd.hopCount]; exact inside)).1 rfl

/-- The plain expressions of the checks stay in range on what a route has left. -/
theorem checkRow_unwrapped {final : Ledger} {hops : List (UInt64 × UInt64)} {out : UInt64}
    (rowEnd : RowEnd routeCase seed hops out final) :
    checkRow mollusk spec routeCase seed
        ((mollusk.fixture spec routeCase seed).2.map fun entry => (entry.1, final entry.1)) ≠
      .error .wrapped := by
  intro wrapped
  obtain ⟨accepts, refuses⟩ : (out = routeCase.expectedOut → checkRow mollusk spec routeCase seed
      ((mollusk.fixture spec routeCase seed).2.map fun entry => (entry.1, final entry.1)) =
        .ok ()) ∧ _ :=
    checkRow_of_rowEnd rowEnd lamportsFor_user fun i inside =>
      lamportsFor_pool (by rw [← rowEnd.hopCount]; exact inside)
  by_cases expected : out = routeCase.expectedOut
  · cases wrapped.symm.trans (accepts expected)
  · obtain ⟨message, refused⟩ := refuses expected
    cases wrapped.symm.trans refused

/-- A row gives a number exactly when its route ends as its table entry says. -/
theorem runRouteCase_eq_ok {units : UInt64} :
    runRouteCase mollusk router spec routeCase seed = .ok units ↔
      RowPasses mollusk router spec routeCase seed ∧
        unitsOf mollusk (mollusk.fixture spec routeCase seed) = units := by
  have result : (mollusk.processInstruction router (mollusk.fixture spec routeCase seed).1
    (mollusk.fixture spec routeCase seed).2).programResult = _ := programResult_eq _
  have resulting : (mollusk.processInstruction router (mollusk.fixture spec routeCase seed).1
    (mollusk.fixture spec routeCase seed).2).resultingAccounts = _ := resultingAccounts_eq _
  rw [runRouteCase, RowPasses]
  cases answer : answerTo router (mollusk.fixture spec routeCase seed) with
  | error abort =>
      rw [answer] at result
      simp [result]
  | ok after =>
      rw [answer] at result
      rw [reported_of_ok answer] at resulting
      simp only [result, resulting, Sweep.bind_eq_ok]
      constructor
      · intro given
        obtain ⟨_, checked, counted⟩ := given
        obtain ⟨hops, rowEnd⟩ := checkRow_eq_ok.mp checked
        exact ⟨⟨after, hops, rfl, rowEnd⟩, Except.ok.inj counted⟩
      · intro given
        obtain ⟨⟨_, hops, same, rowEnd⟩, counted⟩ := given
        cases same
        exact ⟨(), checkRow_eq_ok.mpr ⟨hops, rowEnd⟩, congrArg Except.ok counted⟩

end Row

/-! ## The routers of this workspace -/

/-- A row whose numbers are right: its rates fold to the output of the table, the
output meets the gate, and no hop takes more than its pool then holds. -/
structure Sound (routeCase : RouteCase) (hops : List (UInt64 × UInt64)) : Prop where
  some : 1 ≤ routeCase.rates.length
  few : routeCase.rates.length ≤ 3
  folded : expectedHops initialAmount routeCase.rates = .ok hops
  lastOut : hops.getLast?.map Prod.snd = Option.some routeCase.expectedOut
  gate : routeCase.minOut ≤ routeCase.expectedOut
  covered : ∀ hop ∈ hops, hop.2.toNat ≤ 100000000000 + hop.1.toNat

theorem forwards_of_folds : ∀ (rates : List (UInt32 × UInt32)) (amount : UInt64)
    (hops : List (UInt64 × UInt64)) (pools : List AccountView), Folds amount rates hops →
      Exchanges.Forwards amount.toNat (Refinement.routeLegs pools hops) := by
  intro rates
  induction rates with
  | nil =>
      intro amount hops pools folds
      obtain rfl : hops = [] := folds
      simp [Refinement.routeLegs, Exchanges.Forwards]
  | cons rate rest ih =>
      intro amount hops pools folds
      obtain ⟨out, tail, _, rfl, later⟩ := folds
      cases pools with
      | nil => simp [Refinement.routeLegs, Exchanges.Forwards]
      | cons pool others => exact ⟨rfl, ih out tail others later⟩

/-- A chain that its pools can serve grows by at most one pool a hop. -/
theorem folds_bounded : ∀ (rates : List (UInt32 × UInt32)) (amount : UInt64)
    (hops : List (UInt64 × UInt64)), Folds amount rates hops →
      (∀ hop ∈ hops, hop.2.toNat ≤ 100000000000 + hop.1.toNat) →
        ∀ hop ∈ hops, hop.1.toNat ≤ amount.toNat + 100000000000 * rates.length ∧
          hop.2.toNat ≤ amount.toNat + 100000000000 * rates.length := by
  intro rates
  induction rates with
  | nil =>
      intro amount hops folds _ hop member
      obtain rfl : hops = [] := folds
      cases member
  | cons rate rest ih =>
      intro amount hops folds covered hop member
      obtain ⟨out, tail, _, rfl, later⟩ := folds
      have first : out.toNat ≤ 100000000000 + amount.toNat :=
        covered (amount, out) List.mem_cons_self
      rw [List.length_cons]
      rcases List.mem_cons.mp member with rfl | inTail
      · exact ⟨Nat.le_add_right _ _, by simp only; omega⟩
      · have bounds := ih out tail later
          (fun other inside => covered other (List.mem_cons_of_mem _ inside)) hop inTail
        exact ⟨by omega, by omega⟩

section Workspace

variable {fw : QuasarRouter.Framework} {mollusk : Mollusk} {spec : ProgramSpec}
  {routeCase : RouteCase} {seed : Fin 8}

theorem fixture_venue {programId : Address} {loaded : Account} {i : Nat}
    (inside : i < routeCase.rates.length) :
    ((routeFixture programId loaded routeCase seed).1.accounts.map
      InstructionAccount.view)[1 + 2 * i]? =
        some ⟨RouterBench.mockAmmProgramId, false, false⟩ := by
  rw [Nat.add_comm, List.getElem?_map, routeFixture]
  simp only [List.getElem?_cons_succ, (getElem?_flatMap_pair _ _ _ _).1, List.getElem?_range inside,
    Option.map_some]
  rfl

theorem fixture_count {programId : Address} {loaded : Account} :
    ((routeFixture programId loaded routeCase seed).1.accounts.map
      InstructionAccount.view).length = 1 + 2 * routeCase.rates.length := by
  rw [List.length_map, routeFixture]
  simp only [List.length_cons, length_flatMap_pair, List.length_range]
  omega

theorem fixture_poolOwner {programId : Address} {loaded : Account} {i : Nat}
    (inside : i < routeCase.rates.length) (few : i < 3) :
    (ledgerOf (routeFixture programId loaded routeCase seed).2 (poolAddress seed i)).owner =
      RouterBench.mockAmmProgramId := by
  have notUser := (poolAddress_ne_sharedUser seed i few).symm
  have notVenue := (poolAddress_ne_mockAmm seed i few).symm
  have listed : poolAddress seed i ∈
      ((List.range routeCase.rates.length).map (fixturePool seed)).map Prod.fst :=
    List.mem_map_of_mem (List.mem_map_of_mem (List.mem_range.mpr inside))
  obtain ⟨entry, found, member, _⟩ := find_listed listed
  obtain ⟨hop, _, rfl⟩ := List.mem_map.mp member
  simp only [ledgerOf, routeFixture, List.find?_cons, notUser, notVenue, decide_false, found]
  rfl

theorem feasible_of_sound (mollusk : Mollusk) (spec : ProgramSpec) (seed : Fin 8)
    {hops : List (UInt64 × UInt64)} (sound : Sound routeCase hops) :
    ∃ route user pools, Refinement.Feasible
      ((mollusk.fixture spec routeCase seed).1.accounts.map InstructionAccount.view)
      ((executeRouteData routeCase.minOut initialAmount routeCase.rates).drop 1)
      (ledgerOf (mollusk.fixture spec routeCase seed).2) route user pools routeCase.rates hops
      routeCase.expectedOut := by
  obtain ⟨route, parsed⟩ := (routeGrammar_shared.accepts routeCase.minOut initialAmount
    routeCase.rates).mpr ⟨sound.some, sound.few⟩
  obtain ⟨minOut, hopCount, initial, ratesRead⟩ :=
    routeGrammar_shared.decodes _ _ _ route parsed
  let pools : List AccountView :=
    (List.range routeCase.rates.length).map fun i => ⟨poolAddress seed i, false, true⟩
  have poolCount : pools.length = routeCase.rates.length := by simp [pools]
  have poolAt : ∀ i (inside : i < pools.length),
      pools[i] = ⟨poolAddress seed i, false, true⟩ := by
    intro i inside
    simp [pools]
  have folds := expectedHops_eq_ok.mp sound.folded
  have hopsCount : hops.length = routeCase.rates.length := Refinement.folds_length _ _ _ folds
  have poolsExact : pools.map AccountView.address =
      (List.range routeCase.rates.length).map (poolAddress seed) := by
    simp [pools, Function.comp_def]
  have legPools := rowLegs_pools poolsExact hopsCount
  have few := sound.few
  have ofPool : ∀ leg ∈ Refinement.routeLegs pools hops, ∃ i, i < routeCase.rates.length ∧
      leg.pool = poolAddress seed i ∧ ∃ hop ∈ hops, leg.paid = hop.1.toNat ∧
        leg.received = hop.2.toNat := by
    intro leg member
    obtain ⟨i, inside, rfl⟩ := List.getElem_of_mem member
    have inLegs := inside
    simp only [Refinement.routeLegs, List.length_zipWith, lt_inf_iff] at inLegs
    refine ⟨i, by omega, ?_, hops[i], List.getElem_mem _, ?_, ?_⟩
    · simp [Refinement.routeLegs, poolAt]
    · simp [Refinement.routeLegs]
    · simp [Refinement.routeLegs]
  have legsApart : ∀ leg ∈ Refinement.routeLegs pools hops, leg.pool ≠ sharedUser seed := by
    intro leg member
    obtain ⟨i, inside, pool, _⟩ := ofPool leg member
    rw [pool]
    exact poolAddress_ne_sharedUser seed i (by omega)
  have distinct : ((Refinement.routeLegs pools hops).map Exchanges.Leg.pool).Nodup := by
    rw [legPools]
    exact rowPools_nodup few
  have start : (ledgerOf (mollusk.fixture spec routeCase seed).2).balances (sharedUser seed) =
      9000000000 + initialAmount.toNat := fixture_userLamports
  have bounds := folds_bounded _ _ _ folds sound.covered
  have initialNat : initialAmount.toNat = 1000000000 := rfl
  have replayable : Exchanges.Replayable (2 ^ 64) (sharedUser seed)
      (ledgerOf (mollusk.fixture spec routeCase seed).2).balances
      (Refinement.routeLegs pools hops) := by
    refine Exchanges.replayable_of_chain _ _ _ (forwards_of_folds _ _ _ pools folds) legsApart
      distinct start ?_ ?_ ?_
    · intro leg member
      obtain ⟨i, inside, pool, hop, inHops, paid, received⟩ := ofPool leg member
      rw [pool, Mollusk.fixture, fixture_poolLamports inside (by omega), paid, received]
      exact sound.covered hop inHops
    · intro leg member
      obtain ⟨i, inside, pool, hop, inHops, paid, _⟩ := ofPool leg member
      have bound := bounds hop inHops
      rw [pool, Mollusk.fixture, fixture_poolLamports inside (by omega), paid]
      omega
    · intro leg member
      obtain ⟨_, _, _, hop, inHops, paid, received⟩ := ofPool leg member
      have bound := bounds hop inHops
      omega
  refine ⟨route, ⟨sharedUser seed, false, true⟩, pools, parsed, ?_, rfl, rfl, ?_, by omega, ?_, ?_,
    ?_, hopCount.symm, ratesRead, ?_, replayable, sound.lastOut, ?_⟩
  · rw [hopCount, Mollusk.fixture, fixture_count]
  · intro i inside
    exact ⟨_, fixture_venue (by omega), rfl⟩
  · intro i inside
    rw [poolAt i inside]
    exact fixture_pool (by omega)
  · intro pool member
    obtain ⟨i, inside, rfl⟩ := List.getElem_of_mem member
    rw [poolAt i inside]
  · intro pool member
    obtain ⟨i, inside, rfl⟩ := List.getElem_of_mem member
    rw [poolAt i inside]
    exact fixture_poolOwner (by omega) (by omega)
  · rw [initial]
    exact sound.folded
  · rw [minOut]
    exact sound.gate

theorem fixture_eq_ok (lawful : fw.Lawful) (framework : Framework) {after : Ledger} :
    answerTo (framework.router fw) (mollusk.fixture spec routeCase seed) = .ok after ↔
      answerTo pinocchioRouter (mollusk.fixture spec routeCase seed) = .ok after := by
  rw [answerTo, answerTo, calleeOf_eq_ok, calleeOf_eq_ok]
  constructor
  · intro given
    obtain ⟨final, ok, left⟩ := given
    exact ⟨final, (router_eq_ok lawful framework).mp ok, left⟩
  · intro given
    obtain ⟨final, ok, left⟩ := given
    exact ⟨final, (router_eq_ok lawful framework).mpr ok, left⟩

theorem rowEnd_gated {after : Ledger}
    (answer : answerTo pinocchioRouter (mollusk.fixture spec routeCase seed) = .ok after) :
    1 ≤ routeCase.rates.length ∧ routeCase.rates.length ≤ 3 ∧ ∃ hops out,
      RowEnd routeCase seed hops out after ∧ routeCase.minOut ≤ out := by
  obtain ⟨final, ok, rfl⟩ := calleeOf_eq_ok.mp answer
  rw [Mollusk.fixture, fixture_data] at ok
  obtain ⟨payload, same, executed⟩ := PinocchioRouter.processInstruction_eq_ok.mp ok
  obtain rfl := List.tail_eq_of_cons_eq same
  obtain ⟨route, user, pools, rates, hops, out, feasible, outcome⟩ :=
    Refinement.feasible_of_ok fixture_apart executed
  obtain ⟨some, few⟩ := (routeGrammar_shared.accepts _ _ _).mp ⟨route, feasible.parsed⟩
  obtain ⟨minOut, _⟩ := routeGrammar_shared.decodes _ _ _ route feasible.parsed
  have gate := feasible.gate
  rw [minOut] at gate
  exact ⟨some, few, hops, out, rowEnd_of_feasible feasible outcome, gate⟩

theorem sound_of_passes (passes : RowPasses mollusk pinocchioRouter spec routeCase seed) :
    ∃ hops, Sound routeCase hops := by
  obtain ⟨after, hops, answer, rowEnd⟩ := passes
  obtain ⟨some, few, hops', out, gated, gate⟩ := rowEnd_gated answer
  obtain rfl : hops = hops' := Except.ok.inj (rowEnd.folded.symm.trans gated.folded)
  obtain rfl : routeCase.expectedOut = out :=
    Option.some.inj (rowEnd.lastOut.symm.trans gated.lastOut)
  refine ⟨hops, some, few, rowEnd.folded, rowEnd.lastOut, gate, ?_⟩
  intro hop member
  obtain ⟨i, inside, rfl⟩ := List.getElem_of_mem member
  have balance := rowEnd.poolEnd i inside
  omega

theorem passes_of_sound {hops : List (UInt64 × UInt64)} (sound : Sound routeCase hops) :
    RowPasses mollusk pinocchioRouter spec routeCase seed := by
  obtain ⟨route, user, pools, feasible⟩ := feasible_of_sound mollusk spec seed sound
  obtain ⟨final, executed⟩ := Refinement.ok_of_feasible fixture_apart feasible
  have answer : answerTo pinocchioRouter (mollusk.fixture spec routeCase seed) =
      .ok final.ledger := by
    refine calleeOf_eq_ok.mpr ⟨final, ?_, rfl⟩
    rw [Mollusk.fixture, fixture_data]
    exact PinocchioRouter.processInstruction_eq_ok.mpr ⟨_, rfl, executed⟩
  obtain ⟨_, _, hops', out, rowEnd, _⟩ := rowEnd_gated answer
  obtain rfl : hops = hops' := Except.ok.inj (sound.folded.symm.trans rowEnd.folded)
  obtain rfl : routeCase.expectedOut = out :=
    Option.some.inj (sound.lastOut.symm.trans rowEnd.lastOut)
  exact ⟨final.ledger, hops, answer, rowEnd⟩

theorem passes_iff_sound (lawful : fw.Lawful) (framework : Framework) :
    RowPasses mollusk (framework.router fw) spec routeCase seed ↔
      ∃ hops, Sound routeCase hops := by
  constructor
  · intro passes
    obtain ⟨after, hops, answer, rowEnd⟩ := passes
    exact sound_of_passes ⟨after, hops, (fixture_eq_ok lawful framework).mp answer, rowEnd⟩
  · intro sound
    obtain ⟨_, sound⟩ := sound
    obtain ⟨after, hops, answer, rowEnd⟩ := passes_of_sound sound
    exact ⟨after, hops, (fixture_eq_ok lawful framework).mpr answer, rowEnd⟩

end Workspace

/-- No plain `u64` expression of the runner leaves its type: what a route that
returned `Ok` has left keeps all of them in range. -/
theorem runRouteCase_unwrapped {fw : QuasarRouter.Framework} (lawful : fw.Lawful)
    (framework : Framework) (mollusk : Mollusk) (spec : ProgramSpec) (routeCase : RouteCase)
    (seed : Fin 8) :
    runRouteCase mollusk (framework.router fw) spec routeCase seed ≠ .error .wrapped := by
  have result : (mollusk.processInstruction (framework.router fw)
    (mollusk.fixture spec routeCase seed).1
    (mollusk.fixture spec routeCase seed).2).programResult = _ := programResult_eq _
  have resulting : (mollusk.processInstruction (framework.router fw)
    (mollusk.fixture spec routeCase seed).1
    (mollusk.fixture spec routeCase seed).2).resultingAccounts = _ := resultingAccounts_eq _
  rw [runRouteCase]
  cases answer : answerTo (framework.router fw) (mollusk.fixture spec routeCase seed) with
  | error abort =>
      rw [answer] at result
      simp [result]
  | ok after =>
      have answered := (fixture_eq_ok lawful framework).mp answer
      obtain ⟨_, _, hops, out, rowEnd, _⟩ := rowEnd_gated answered
      rw [answer] at result
      rw [reported_of_ok answer] at resulting
      simp only [result, resulting]
      intro wrapped
      rcases Sweep.bind_eq_error.mp wrapped with unchecked | ⟨_, _, impossible⟩
      · exact checkRow_unwrapped rowEnd unchecked
      · cases impossible

/-- The verdict on a row is arithmetic on the row: both routers pass it exactly
when it is sound, at every seed and under every harness, and the runner's own
expressions never wrap on the way to it. -/
theorem row_verdict (fw : QuasarRouter.Framework) (lawful : fw.Lawful) (framework : Framework)
    (mollusk : Mollusk) (spec : ProgramSpec) (routeCase : RouteCase) (seed : Fin 8) :
    (∀ units, runRouteCase mollusk (framework.router fw) spec routeCase seed = .ok units ↔
      (∃ hops, Sound routeCase hops) ∧
        unitsOf mollusk (mollusk.fixture spec routeCase seed) = units) ∧
      runRouteCase mollusk (framework.router fw) spec routeCase seed ≠ .error .wrapped := by
  refine ⟨fun units => ?_, runRouteCase_unwrapped lawful framework mollusk spec routeCase seed⟩
  rw [runRouteCase_eq_ok, passes_iff_sound lawful framework]

theorem swapCases_sound : ∀ routeCase ∈ swapCases, ∃ hops, Sound routeCase hops := by
  intro routeCase listed
  simp only [swapCases, List.mem_cons, List.not_mem_nil, or_false] at listed
  rcases listed with rfl | rfl | rfl
  · exact ⟨[(1000000000, 1500000000)], by decide, by decide, by rfl, rfl, by decide, by simp⟩
  · exact ⟨[(1000000000, 1500000000), (1500000000, 1000000000)], by decide, by decide, by rfl, rfl,
      by decide, by simp⟩
  · exact ⟨[(1000000000, 1500000000), (1500000000, 1000000000), (1000000000, 2000000000)],
      by decide, by decide, by rfl, rfl, by decide, by simp⟩

theorem row_verdict_three_hops :
    runRouteCase plainMollusk (Framework.quasar.router QuasarRouter.listFramework)
      ⟨"quasar", fun _ => 0x51⟩ (swapCases.get ⟨2, by decide⟩) firstSeed = .ok 5000 :=
  ((row_verdict QuasarRouter.listFramework QuasarRouter.listFramework_lawful .quasar plainMollusk
    ⟨"quasar", fun _ => 0x51⟩ (swapCases.get ⟨2, by decide⟩) firstSeed).1 5000).mpr
    ⟨swapCases_sound _ (List.get_mem _ _), rfl⟩

end HopperBench.RowVerdict
