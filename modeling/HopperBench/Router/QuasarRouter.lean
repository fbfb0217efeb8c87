import HopperBench.Router.MeasuredSwap

/-!
# The Quasar router

The same contract on a framework that hands the handler its declared account
and an iterator over the remaining ones.  The pairs of a route are pulled off
that iterator hop by hop, between the swaps.

The framework itself is not part of the repository.  What the handler uses of
it is a parameter, `Framework`, and `Framework.Lawful` states what it is relied
on to do.
-/

set_option autoImplicit false

namespace HopperBench.QuasarRouter

open StoppingRun HopperBench.Solana HopperBench.RouteWire HopperBench.MeasuredSwap

def mockAmmProgramId : Address := fun _ => 0xAA

def executeRouteDiscriminator : UInt8 := 1

def maxHops : Nat := 3

def routeHeaderLen : Nat := 17

def hopRateLen : Nat := 8

/-- `RouterError::MinOutNotMet`, pinned to `Custom(1)`. -/
def minOutNotMet : UInt32 := 1

def hopRate (route : Route) (i : Nat) : Except Abort (UInt32 × UInt32) :=
  hopRateWith hopRateLen route.rates i

def parseRoute (data : List UInt8) : Except Abort Route :=
  parseRouteWith routeHeaderLen hopRateLen maxHops data

def encodeSwapData (rateNum rateDen : UInt32) (amount : UInt64) : List UInt8 :=
  encodeSwapWith 0 rateNum rateDen amount

/-- `CtxWithRemaining<ExecuteRoute>`, with the iterator over the remaining
accounts. -/
structure Ctx (Iter : Type) where
  user : AccountView
  remaining : Iter
  data : List UInt8

/-- The framework: its remaining-accounts iterator, and the generated dispatch
from an account list and instruction data to the handler's context. -/
structure Framework where
  Iter : Type
  next : Iter → Option (Except Abort AccountView) × Iter
  dispatch : List AccountView → List UInt8 → Except Abort (Ctx Iter)

/-- From `iter` the iterator yields `views` in order and then ends. -/
def Framework.Yields (fw : Framework) (iter : fw.Iter) (views : List AccountView) : Prop :=
  Cursor.Yields fw.next (fun view => some (.ok view)) none iter views

/-- The dispatch strips the discriminator, binds the first account to `user`
and leaves the others to the iterator.  It rejects any other discriminator. -/
structure Framework.Lawful (fw : Framework) : Prop where
  executes : ∀ user rest payload, ∃ ctx,
    fw.dispatch (user :: rest) (executeRouteDiscriminator :: payload) = .ok ctx ∧
      ctx.user = user ∧ ctx.data = payload ∧ fw.Yields ctx.remaining rest
  rejects : ∀ user rest data, data.head? ≠ some executeRouteDiscriminator →
    fw.dispatch (user :: rest) data = .error (.error .invalidInstructionData)

/-- `Lawful.executes` at the byte that stands on the wire. -/
theorem Framework.Lawful.dispatches {fw : Framework} (lawful : fw.Lawful) (user : AccountView)
    (rest : List AccountView) (payload : List UInt8) :
    ∃ ctx, fw.dispatch (user :: rest) (1 :: payload) = .ok ctx ∧
      ctx.user = user ∧ ctx.data = payload ∧ fw.Yields ctx.remaining rest :=
  lawful.executes user rest payload

/-- The lawful framework whose iterator is the list of accounts not yet handed
out. -/
def listFramework : Framework where
  Iter := List AccountView
  next := Cursor.listNext (fun view => some (.ok view)) none
  dispatch := fun accounts data =>
    match accounts, data with
    | [], _ => .error (.error .notEnoughAccountKeys)
    | _ :: _, [] => .error (.error .invalidInstructionData)
    | user :: rest, disc :: payload =>
        if disc = executeRouteDiscriminator then .ok ⟨user, rest, payload⟩
        else .error (.error .invalidInstructionData)

theorem listFramework_lawful : listFramework.Lawful where
  executes := fun user rest payload =>
    ⟨⟨user, rest, payload⟩, rfl, rfl, rfl, Cursor.yields_list _ _ rest⟩
  rejects := by
    intro user rest data unknown
    cases data with
    | nil => rfl
    | cons disc payload =>
        have other : disc ≠ executeRouteDiscriminator := fun same => unknown (by rw [same]; rfl)
        simp [listFramework, other]

section Handler

variable (fw : Framework)

def nextHopAccount (hops : fw.Iter) : Except Abort (AccountView × fw.Iter) :=
  match fw.next hops with
  | (some (.ok view), rest) => .ok (view, rest)
  | (some (.error abort), _) => .error abort
  | (none, _) => .error (.error .notEnoughAccountKeys)

/-- One round of the hop loop.  The iterator is part of what a round carries to
the next one. -/
def hopStep (callee : Callee) (route : Route) (user : AccountView) (hop : Nat)
    (carried : fw.Iter × UInt64) : Program (fw.Iter × UInt64) := do
  let first ← Exec.lift (nextHopAccount fw carried.1)
  let second ← Exec.lift (nextHopAccount fw first.2)
  let ammProgram := first.1
  let pool := second.1
  ensure (ammProgram.address = mockAmmProgramId) .incorrectProgramId
  ensure (pool.isWritable = true) .invalidAccountData
  let rate ← Exec.lift (hopRate route hop)
  let out ← measuredSwap callee mockAmmProgramId pool user
    (encodeSwapData rate.1 rate.2 carried.2) carried.2
  return (second.2, out)

/-- `ExecuteRoute::execute` -/
def execute (callee : Callee) (user : AccountView) (route : Route) (remaining : fw.Iter) :
    Program Unit := do
  ensure (user.isWritable = true) .invalidAccountData
  let last ← Exec.countUp (hopStep fw callee route user) route.hopCount.toNat 0
    (remaining, route.initialAmount)
  ensure (last.2 ≥ route.minOut) (.custom minOutNotMet)

def executeRoute (callee : Callee) (ctx : Ctx fw.Iter) : Program Unit := do
  let route ← Exec.lift (parseRoute ctx.data)
  execute fw callee ctx.user route ctx.remaining

def processInstruction (callee : Callee) (_programId : Address) (accounts : List AccountView)
    (data : List UInt8) : Program Unit := do
  let ctx ← Exec.lift (fw.dispatch accounts data)
  executeRoute fw callee ctx

end Handler

section Spec

variable {fw : Framework} {callee : Callee} {route : Route} {user : AccountView}

theorem nextHopAccount_nil {iter : fw.Iter} (ended : fw.Yields iter []) :
    nextHopAccount fw iter = .error (.error .notEnoughAccountKeys) := by
  have answer : (fw.next iter).1 = none := ended
  rw [nextHopAccount]
  rcases called : fw.next iter with ⟨item, rest⟩
  rw [called] at answer
  subst answer
  rfl

theorem nextHopAccount_cons {iter : fw.Iter} {view : AccountView} {views : List AccountView}
    (yields : fw.Yields iter (view :: views)) :
    ∃ rest, nextHopAccount fw iter = .ok (view, rest) ∧ fw.Yields rest views := by
  obtain ⟨answer, later⟩ := yields
  rcases called : fw.next iter with ⟨item, rest⟩
  rw [called] at answer later
  subst answer
  refine ⟨rest, ?_, later⟩
  rw [nextHopAccount, called]

theorem hopStep_run {hop : Nat} {inAmount : UInt64} {iter middle next : fw.Iter}
    {ammProgram pool : AccountView}
    (programRead : nextHopAccount fw iter = .ok (ammProgram, middle))
    (poolRead : nextHopAccount fw middle = .ok (pool, next)) (m : Machine) :
    (hopStep fw callee route user hop (iter, inAmount)).run m =
      (checkedHop callee route user ammProgram pool hop inAmount >>=
        fun out => pure (next, out)).run m := by
  rw [hopStep, Exec.run_lift_bind_ok programRead, Exec.run_lift_bind_ok poolRead]
  simp only [checkedHop, Exec.bind_bind]
  rfl

theorem hopStep_eq_ok {hop : Nat} {carried next : fw.Iter × UInt64} {m n : Machine} :
    (hopStep fw callee route user hop carried).run m = (.ok next, n) ↔
      ∃ first pool rate, nextHopAccount fw carried.1 = .ok first ∧
        nextHopAccount fw first.2 = .ok (pool, next.1) ∧
        first.1.address = mockAmmProgramId ∧ pool.isWritable = true ∧
        hopRate route hop = .ok rate ∧
        (measuredSwap callee mockAmmProgramId pool user
          (encodeSwapData rate.1 rate.2 carried.2) carried.2).run m = (.ok next.2, n) := by
  simp only [hopStep, Exec.lift_bind_eq_ok, ensure_bind_eq_ok]
  simp only [Exec.bind_eq_ok, Exec.run_pure]
  constructor
  · intro given
    obtain ⟨first, firstRead, second, secondRead, venue, writable, rate, rateRead, out, _, swapped,
      returned⟩ := given
    cases returned
    exact ⟨first, second.1, rate, firstRead, secondRead, venue, writable, rateRead, swapped⟩
  · intro given
    obtain ⟨first, pool, rate, firstRead, secondRead, venue, writable, rateRead, swapped⟩ := given
    exact ⟨first, firstRead, (pool, next.1), secondRead, venue, writable, rate, rateRead, next.2, n,
      swapped, rfl⟩

theorem processInstruction_dispatched {programId : Address} {accounts : List AccountView}
    {data : List UInt8} {ctx : Ctx fw.Iter} {m : Machine}
    (dispatched : fw.dispatch accounts data = .ok ctx) :
    (processInstruction fw callee programId accounts data).run m =
      (executeRoute fw callee ctx).run m := by
  rw [processInstruction, Exec.run_lift_bind_ok dispatched]

theorem processInstruction_rejected {programId : Address} {accounts : List AccountView}
    {data : List UInt8} {abort : Abort} {m : Machine}
    (rejected : fw.dispatch accounts data = .error abort) :
    (processInstruction fw callee programId accounts data).run m = (.error abort, m) := by
  rw [processInstruction, Exec.run_lift_bind_error rejected]

theorem executeRoute_run {ctx : Ctx fw.Iter} {m : Machine}
    (parsed : parseRoute ctx.data = .ok route) :
    (executeRoute fw callee ctx).run m =
      (execute fw callee ctx.user route ctx.remaining).run m := by
  rw [executeRoute, Exec.run_lift_bind_ok parsed]

theorem executeRoute_unparsed {ctx : Ctx fw.Iter} {m : Machine} {abort : Abort}
    (unparsed : parseRoute ctx.data = .error abort) :
    (executeRoute fw callee ctx).run m = (.error abort, m) := by
  rw [executeRoute, Exec.run_lift_bind_error unparsed]

theorem execute_eq_ok {remaining : fw.Iter} {m n : Machine} {u : Unit} :
    (execute fw callee user route remaining).run m = (.ok u, n) ↔
      ∃ last, user.isWritable = true ∧
        (Exec.countUp (hopStep fw callee route user) route.hopCount.toNat 0
          (remaining, route.initialAmount)).run m = (.ok last, n) ∧
        route.minOut ≤ last.2 := by
  simp only [execute, ensure_bind_eq_ok]
  simp only [Exec.bind_eq_ok, ensure_eq_ok, ge_iff_le]
  constructor
  · intro given
    obtain ⟨writable, last, _, loop, gate, rfl⟩ := given
    exact ⟨last, writable, loop, gate⟩
  · intro given
    obtain ⟨last, writable, loop, gate⟩ := given
    exact ⟨writable, last, n, loop, gate, rfl⟩

end Spec

end HopperBench.QuasarRouter
