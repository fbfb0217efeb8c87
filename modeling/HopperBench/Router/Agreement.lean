import HopperBench.Router.RouterBench

/-!
# The two routers against each other

The Pinocchio router counts its accounts up front and indexes them; the Quasar
router pulls them off an iterator between the swaps.  On a list that is long
enough for the route the two runs are the same run, whatever the venue does.
On a short list neither returns `Ok`, but they do not stop at the same point.
-/

set_option autoImplicit false

namespace HopperBench.Agreement

open StoppingRun HopperBench.Solana HopperBench.RouteWire HopperBench.MeasuredSwap
  HopperBench.RouterBench

/-- The list is long enough for the route that `data` asks for, if it asks for
one. -/
def Sufficient (accounts : List AccountView) (data : List UInt8) : Prop :=
  ∀ payload route, data = 1 :: payload → PinocchioRouter.parseRoute payload = .ok route →
    1 + 2 * route.hopCount.toNat ≤ accounts.length

section Loops

variable {fw : QuasarRouter.Framework} {callee : Callee} {route : Route} {user : AccountView}
  {rest : List AccountView}

/-- The pair of a hop, as the iterator hands it out and as the list indexes it. -/
theorem drop_pair {hop : Nat} (inside : 2 * hop + 1 < rest.length) :
    rest.drop (2 * hop) = rest[2 * hop] :: rest[2 * hop + 1] :: rest.drop (2 * (hop + 1)) := by
  have next : 2 * (hop + 1) = 2 * hop + 1 + 1 := by omega
  rw [List.drop_eq_getElem_cons (by omega), List.drop_eq_getElem_cons inside, next]

theorem hop_agree {hop : Nat} {inAmount : UInt64} {iter : fw.Iter} (m : Machine)
    (inside : 2 * hop + 1 < rest.length) (small : hop < 2 ^ 8)
    (yields : fw.Yields iter (rest.drop (2 * hop))) :
    Exec.Agree (fun out next => out = next.2 ∧ fw.Yields next.1 (rest.drop (2 * (hop + 1))))
      (PinocchioRouter.hopStep callee (user :: rest) route user hop inAmount)
      (QuasarRouter.hopStep fw callee route user hop (iter, inAmount)) m := by
  rw [drop_pair inside] at yields
  obtain ⟨middle, programRead, afterProgram⟩ := QuasarRouter.nextHopAccount_cons yields
  obtain ⟨next, poolRead, afterPool⟩ := QuasarRouter.nextHopAccount_cons afterProgram
  have programFound : (user :: rest)[1 + 2 * hop]? = some rest[2 * hop] := by
    rw [Nat.add_comm, List.getElem?_cons_succ, List.getElem?_eq_getElem (by omega)]
  have poolFound : (user :: rest)[2 + 2 * hop]? = some rest[2 * hop + 1] := by
    have position : 2 + 2 * hop = 2 * hop + 1 + 1 := by omega
    rw [position, List.getElem?_cons_succ, List.getElem?_eq_getElem inside]
  refine Exec.Agree.congr ?_
    (PinocchioRouter.hopStep_run (by omega) programFound poolFound m)
    (QuasarRouter.hopStep_run programRead poolRead m)
  apply Exec.agree_bind_pure
  intro out
  exact ⟨rfl, afterPool⟩

theorem loops_agree {iter : fw.Iter} (m : Machine)
    (enough : 2 * route.hopCount.toNat ≤ rest.length) (yields : fw.Yields iter rest) :
    Exec.Agree (fun out last => out = last.2)
      (Exec.countUp (PinocchioRouter.hopStep callee (user :: rest) route user)
        route.hopCount.toNat 0 route.initialAmount)
      (Exec.countUp (QuasarRouter.hopStep fw callee route user)
        route.hopCount.toNat 0 (iter, route.initialAmount)) m := by
  have countBound : route.hopCount.toNat < 256 := route.hopCount.toNat_lt
  let rel : Nat → UInt64 → fw.Iter × UInt64 → Prop := fun hop inAmount carried =>
    inAmount = carried.2 ∧ fw.Yields carried.1 (rest.drop (2 * hop))
  have round : ∀ hop inAmount carried t, hop < route.hopCount.toNat → rel hop inAmount carried →
      Exec.Agree (rel (hop + 1))
        (PinocchioRouter.hopStep callee (user :: rest) route user hop inAmount)
        (QuasarRouter.hopStep fw callee route user hop carried) t := by
    intro hop inAmount carried t inLoop related
    obtain ⟨rfl, left⟩ := related
    exact hop_agree t (by omega) (by omega) left
  have agreed := Exec.agree_countUp round route.hopCount.toNat 0 route.initialAmount
    (iter, route.initialAmount) m (Nat.zero_add _) ⟨rfl, yields⟩
  exact agreed.mono fun _ _ related => related.1

theorem quasar_loop_pulled {iter : fw.Iter} {m final : Machine} {last : fw.Iter × UInt64}
    (yields : fw.Yields iter rest)
    (ended : (Exec.countUp (QuasarRouter.hopStep fw callee route user)
      route.hopCount.toNat 0 (iter, route.initialAmount)).run m = (.ok last, final)) :
    2 * route.hopCount.toNat ≤ rest.length := by
  let inv : Nat → fw.Iter × UInt64 → Machine → Prop := fun hop carried _ =>
    2 * hop ≤ rest.length ∧ fw.Yields carried.1 (rest.drop (2 * hop))
  have round : ∀ hop carried t, hop < route.hopCount.toNat → inv hop carried t →
      (QuasarRouter.hopStep fw callee route user hop carried).Meets t (inv (hop + 1))
        fun _ _ => True := by
    intro hop carried t _ holds
    obtain ⟨_, left⟩ := holds
    apply Exec.meets_of_ok
    intro next u returned
    obtain ⟨first, pool, _, programRead, poolRead, _⟩ := QuasarRouter.hopStep_eq_ok.mp returned
    have inside : 2 * hop + 1 < rest.length := by
      by_contra short
      rcases Nat.lt_or_ge (2 * hop) rest.length with one | none
      · have tail : rest.drop (2 * hop + 1) = [] := List.drop_eq_nil_of_le (by omega)
        rw [List.drop_eq_getElem_cons one, tail] at left
        obtain ⟨middle, read, afterProgram⟩ := QuasarRouter.nextHopAccount_cons left
        rw [read] at programRead
        cases programRead
        rw [QuasarRouter.nextHopAccount_nil afterProgram] at poolRead
        cases poolRead
      · rw [List.drop_eq_nil_of_le none] at left
        rw [QuasarRouter.nextHopAccount_nil left] at programRead
        cases programRead
    rw [drop_pair inside] at left
    obtain ⟨middle, read, afterProgram⟩ := QuasarRouter.nextHopAccount_cons left
    rw [read] at programRead
    cases programRead
    obtain ⟨after, read, afterPool⟩ := QuasarRouter.nextHopAccount_cons afterProgram
    rw [read] at poolRead
    cases poolRead
    exact ⟨by omega, afterPool⟩
  have pulled := Exec.countUp_meets round route.hopCount.toNat 0 (iter, route.initialAmount) m
    (Nat.zero_add _) ⟨Nat.zero_le _, yields⟩
  exact (pulled.good_of_ok ended).1

end Loops

section Instructions

variable {fw : QuasarRouter.Framework} {callee : Callee} {programId programId' : Address}
  {user : AccountView} {rest : List AccountView} {data : List UInt8}

theorem execute_agree {route : Route} {iter : fw.Iter} (m : Machine)
    (enough : 2 * route.hopCount.toNat ≤ rest.length) (yields : fw.Yields iter rest) :
    (ensure (user.isWritable = true) .invalidAccountData >>= fun _ =>
      Exec.countUp (PinocchioRouter.hopStep callee (user :: rest) route user)
        route.hopCount.toNat 0 route.initialAmount >>= fun totalOut =>
      ensure (¬totalOut < route.minOut) (.custom PinocchioRouter.minOutNotMet)).run m =
      (QuasarRouter.execute fw callee user route iter).run m := by
  apply Exec.Agree.run_eq
  apply Exec.agree_require
  intro _
  refine (loops_agree m enough yields).bind ?_
  intro totalOut last t related
  apply Exec.agree_of_run_eq
  rw [related, run_ensure, run_ensure]
  simp only [UInt64.not_lt, ge_iff_le]
  rfl

theorem entry_agree (lawful : fw.Lawful) (sufficient : Sufficient (user :: rest) data)
    (m : Machine) :
    (QuasarRouter.processInstruction fw callee programId (user :: rest) data).run m =
      (PinocchioRouter.processInstruction callee programId' (user :: rest) data).run m := by
  by_cases executes : data.head? = some 1
  · obtain ⟨payload, rfl⟩ : ∃ payload, data = 1 :: payload := List.head?_eq_some_iff.mp executes
    obtain ⟨ctx, dispatched, rfl, rfl, yields⟩ := lawful.dispatches user rest payload
    rw [PinocchioRouter.processInstruction_execute,
      QuasarRouter.processInstruction_dispatched dispatched]
    cases parsed : PinocchioRouter.parseRoute ctx.data with
    | error abort =>
        rw [PinocchioRouter.processExecuteRoute_unparsed parsed,
          QuasarRouter.executeRoute_unparsed parsed]
    | ok route =>
        have enough := sufficient ctx.data route rfl parsed
        rw [PinocchioRouter.processExecuteRoute_run parsed enough rfl,
          QuasarRouter.executeRoute_run parsed]
        rw [List.length_cons] at enough
        exact (execute_agree m (by omega) yields).symm
  · rw [PinocchioRouter.processInstruction_unknown executes,
      QuasarRouter.processInstruction_rejected (lawful.rejects user rest data executes)]

theorem pinocchio_append (extra : List AccountView) (sufficient : Sufficient (user :: rest) data)
    (m : Machine) :
    (PinocchioRouter.processInstruction callee programId (user :: rest ++ extra) data).run m =
      (PinocchioRouter.processInstruction callee programId (user :: rest) data).run m := by
  by_cases executes : data.head? = some 1
  · obtain ⟨payload, rfl⟩ : ∃ payload, data = 1 :: payload := List.head?_eq_some_iff.mp executes
    rw [PinocchioRouter.processInstruction_execute, PinocchioRouter.processInstruction_execute]
    cases parsed : PinocchioRouter.parseRoute payload with
    | error abort =>
        rw [PinocchioRouter.processExecuteRoute_unparsed parsed,
          PinocchioRouter.processExecuteRoute_unparsed parsed]
    | ok route =>
        exact PinocchioRouter.processExecuteRoute_append extra parsed
          (sufficient payload route rfl parsed) rfl m
  · rw [PinocchioRouter.processInstruction_unknown executes,
      PinocchioRouter.processInstruction_unknown executes]

theorem quasar_ok_sufficient (lawful : fw.Lawful) {m final : Machine}
    (ok : (QuasarRouter.processInstruction fw callee programId (user :: rest) data).run m =
      (.ok (), final)) : Sufficient (user :: rest) data := by
  intro payload route same parsed
  subst same
  obtain ⟨ctx, dispatched, rfl, rfl, yields⟩ := lawful.dispatches user rest payload
  rw [QuasarRouter.processInstruction_dispatched dispatched,
    QuasarRouter.executeRoute_run parsed] at ok
  obtain ⟨last, _, loop, _⟩ := QuasarRouter.execute_eq_ok.mp ok
  have pulled := quasar_loop_pulled yields loop
  rw [List.length_cons]
  omega

theorem pinocchio_ok_sufficient {m final : Machine}
    (ok : (PinocchioRouter.processInstruction callee programId (user :: rest) data).run m =
      (.ok (), final)) : Sufficient (user :: rest) data := by
  intro payload route same parsed
  subst same
  rw [PinocchioRouter.processInstruction_execute] at ok
  obtain ⟨route', _, _, parsed', enough, _⟩ := PinocchioRouter.processExecuteRoute_eq_ok.mp ok
  obtain rfl : route = route' := Except.ok.inj (parsed.symm.trans parsed')
  exact enough

theorem pinocchio_ok_issued {ledger : Ledger} {final : Machine}
    (ok : (PinocchioRouter.processInstruction callee programId (user :: rest) data).run
      (Machine.start ledger) = (.ok (), final)) :
    ∃ payload route, data = 1 :: payload ∧ PinocchioRouter.parseRoute payload = .ok route ∧
      Recorded (PinocchioRouter.Issued (user :: rest) route user) route.hopCount.toNat final := by
  obtain ⟨payload, rfl, executed⟩ := PinocchioRouter.processInstruction_eq_ok.mp ok
  obtain ⟨route, found, _, parsed, _, userFound, _, loop, _⟩ :=
    PinocchioRouter.processExecuteRoute_eq_ok.mp executed
  obtain rfl : user = found := Option.some.inj userFound
  exact ⟨payload, route, rfl, parsed,
    (PinocchioRouter.hopLoop_issued callee (user :: rest) route user ledger).good_of_ok loop⟩

/-- Both routers accept the same routes, issue the same calls and end in the
same ledger, and neither looks at accounts beyond those its route needs. -/
theorem routers_agree (fw : QuasarRouter.Framework) (lawful : fw.Lawful) (callee : Callee)
    (quasarId pinocchioId : Address) (user : AccountView) (rest : List AccountView)
    (data : List UInt8) (ledger : Ledger) :
    let quasar := fun accounts =>
      (QuasarRouter.processInstruction fw callee quasarId accounts data).run
        (Machine.start ledger)
    let pinocchio := fun accounts =>
      (PinocchioRouter.processInstruction callee pinocchioId accounts data).run
        (Machine.start ledger)
    (∀ final, quasar (user :: rest) = (.ok (), final) ↔
      pinocchio (user :: rest) = (.ok (), final)) ∧
    (∀ final, quasar (user :: rest) = (.ok (), final) → ∃ payload route,
      data = 1 :: payload ∧ PinocchioRouter.parseRoute payload = .ok route ∧
        Recorded (PinocchioRouter.Issued (user :: rest) route user) route.hopCount.toNat final) ∧
    (Sufficient (user :: rest) data → ∀ extra,
      quasar (user :: rest ++ extra) = quasar (user :: rest) ∧
        pinocchio (user :: rest ++ extra) = pinocchio (user :: rest)) := by
  intro quasar pinocchio
  have same : ∀ final, quasar (user :: rest) = (.ok (), final) ↔
      pinocchio (user :: rest) = (.ok (), final) := by
    intro final
    constructor
    · intro ok
      exact (entry_agree lawful (quasar_ok_sufficient lawful ok) _).symm.trans ok
    · intro ok
      exact (entry_agree lawful (pinocchio_ok_sufficient ok) _).trans ok
  refine ⟨same, ?_, ?_⟩
  · intro final ok
    exact pinocchio_ok_issued ((same final).mp ok)
  · intro sufficient extra
    have longer : Sufficient (user :: (rest ++ extra)) data := by
      intro payload route executes parsed
      have enough := sufficient payload route executes parsed
      rw [List.length_cons] at enough ⊢
      rw [List.length_append]
      omega
    have appended : pinocchio (user :: rest ++ extra) = pinocchio (user :: rest) :=
      pinocchio_append extra sufficient _
    refine ⟨?_, appended⟩
    calc quasar (user :: rest ++ extra)
        = pinocchio (user :: rest ++ extra) := entry_agree lawful longer _
      _ = pinocchio (user :: rest) := appended
      _ = quasar (user :: rest) := (entry_agree lawful sufficient _).symm

end Instructions

theorem twoHop_sufficient : Sufficient (twoHopUser :: twoHopPairs) (1 :: twoHopPayload) := by
  intro payload route same parsed
  obtain ⟨_, rfl⟩ := PinocchioRouter.parseRoute_ok_iff.mp parsed
  obtain rfl : twoHopPayload = payload := List.tail_eq_of_cons_eq same
  decide

theorem routers_agree_two_hops :
    let venue : Callee := calleeOf MockAmm.processInstruction
    let quasar := fun accounts =>
      (QuasarRouter.processInstruction QuasarRouter.listFramework venue (fun _ => 0x51) accounts
        (1 :: twoHopPayload)).run (Machine.start twoHopLedger)
    ∃ final, quasar (twoHopUser :: twoHopPairs) = (.ok (), final) ∧
      quasar (twoHopUser :: twoHopPairs ++ [twoHopUser]) = (.ok (), final) := by
  intro venue quasar
  have agree := routers_agree QuasarRouter.listFramework QuasarRouter.listFramework_lawful venue
    (fun _ => 0x51) (fun _ => 0xB2) twoHopUser twoHopPairs (1 :: twoHopPayload) twoHopLedger
  have pinocchioOk : ((PinocchioRouter.processInstruction (calleeOf MockAmm.processInstruction)
      (fun _ => 0xB2) (twoHopUser :: twoHopPairs) (1 :: twoHopPayload)).run
        (Machine.start twoHopLedger)).1 = .ok () := by
    decide +kernel
  have ok := (agree.1 _).mpr (Exec.run_eq_of_fst pinocchioOk)
  have appended := (agree.2.2 twoHop_sufficient [twoHopUser]).1
  exact ⟨_, ok, appended.trans ok⟩

/-- Both routers' encoders are inverse to the venue's parser, and they are the
same on every input. -/
theorem swap_wire :
    MockAmm.Wire PinocchioRouter.encodeSwapData ∧ MockAmm.Wire QuasarRouter.encodeSwapData ∧
      ∀ rateNum rateDen amount, PinocchioRouter.encodeSwapData rateNum rateDen amount =
        QuasarRouter.encodeSwapData rateNum rateDen amount :=
  ⟨MockAmm.wire_encodeSwapWith, MockAmm.wire_encodeSwapWith, fun _ _ _ => rfl⟩

example : PinocchioRouter.encodeSwapData 3 2 1000000000 =
    [0, 3, 0, 0, 0, 2, 0, 0, 0, 0, 202, 154, 59, 0, 0, 0, 0] := by decide +kernel

end HopperBench.Agreement
