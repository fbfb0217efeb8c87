import HopperBench.Library.CheckedWord
import HopperBench.Solana.Bytes

/-!
# The lazy-dispatch vault

One vault of eight instructions, dispatched twice.  The eager entry point gets
the parsed account slice; the lazy one gets a context that parses an account
when it is asked for the next one.  The handlers are shared.

The context and the segment borrow come from the framework, which is not part
of the repository.  They are parameters, and `LazyContext.Lawful` and
`SegmentMut.Lawful` state what is relied on.
-/

set_option autoImplicit false

namespace HopperBench.LazyDispatchVault

open StoppingRun LittleEndian CheckedWord HopperBench.Solana

/-- `vault.segment_mut::<WireU64>(&mut SegmentBorrowRegistry::new(), 0, 8)`:
whether the view of the account's data bytes 0..8 is given out. -/
abbrev SegmentMut := AccountView → Account → Except ProgramError Unit

def SegmentMut.Lawful (segmentMut : SegmentMut) : Prop :=
  ∀ view account, segmentMut view account = .ok () → 8 ≤ account.data.length

/-- The segment borrow that asks for a writable account of at least 8 bytes. -/
def writableSegment : SegmentMut := fun view account =>
  if view.isWritable = true then
    if 8 ≤ account.data.length then .ok () else .error .accountDataTooSmall
  else .error .immutable

theorem writableSegment_lawful : SegmentMut.Lawful writableSegment := by
  intro view account granted
  unfold writableSegment at granted
  split at granted
  · split at granted
    · assumption
    · cases granted
  · cases granted

/-! ## Shared instruction handlers -/

def handlePing : Program Unit := pure ()

def handleGetBalance (vault : AccountView) : Program Unit := do
  let _ ← lamports vault

/-- The body that `handle_authorize` and `handle_withdraw` share. -/
def signedAndWritable (user vault : AccountView) : Program Unit := do
  ensure (user.isSigner = true) .missingRequiredSignature
  ensure (vault.isWritable = true) .immutable

def handleAuthorize (user vault : AccountView) : Program Unit := signedAndWritable user vault

def handleCounter (segmentMut : SegmentMut) (user vault : AccountView) : Program Unit := do
  ensure (user.isSigner = true) .missingRequiredSignature
  let viewed ← account vault
  Exec.lift (propagate (segmentMut vault viewed))
  let next ← orFail (checkedAdd (u64OfBytes (viewed.data.take 8)) 1) .arithmeticOverflow
  setData vault (List.ofFn (u64Bytes next) ++ viewed.data.drop 8)

def handleDeposit (_user _vault _systemProgram : AccountView) : Program Unit := pure ()

def handleWithdraw (user vault : AccountView) : Program Unit := signedAndWritable user vault

def handleSweep (accounts : List AccountView) : Program Unit :=
  accounts.forM fun acct => do
    let _ ← lamports acct

def handleFlush (accounts : List AccountView) : Program Unit := do
  -- `wrapping_add`
  let _ ← accounts.foldlM (fun total acct => do
    let amount ← lamports acct
    pure (total + amount)) 0

/-- `&[&accounts[0], .., &accounts[7]]`, after the length check. -/
def allEight (accounts : List AccountView) : Program (List AccountView) := do
  ensure (¬accounts.length < 8) .notEnoughAccountKeys
  Exec.lift (elementsAt accounts [0, 1, 2, 3, 4, 5, 6, 7])

def processEager (segmentMut : SegmentMut) (_programId : Address) (accounts : List AccountView)
    (instructionData : List UInt8) : Program Unit :=
  match instructionData with
  | [] => Exec.stop (.error .invalidInstructionData)
  | disc :: _ =>
      match disc with
      | 0 => handlePing
      | 1 =>
          match accounts with
          | _ :: vault :: _ => handleGetBalance vault
          | _ => Exec.stop (.error .notEnoughAccountKeys)
      | 2 =>
          match accounts with
          | user :: vault :: _ => handleAuthorize user vault
          | _ => Exec.stop (.error .notEnoughAccountKeys)
      | 3 =>
          match accounts with
          | user :: vault :: _ => handleCounter segmentMut user vault
          | _ => Exec.stop (.error .notEnoughAccountKeys)
      | 4 =>
          match accounts with
          | user :: vault :: systemProgram :: _ => handleDeposit user vault systemProgram
          | _ => Exec.stop (.error .notEnoughAccountKeys)
      | 5 =>
          match accounts with
          | user :: vault :: _ => handleWithdraw user vault
          | _ => Exec.stop (.error .notEnoughAccountKeys)
      | 6 => do
          let refs ← allEight accounts
          handleSweep refs
      | 7 => do
          let refs ← allEight accounts
          handleFlush refs
      | _ => Exec.stop (.error .invalidInstructionData)

/-! ## Lazy variant -/

/-- What the lazy dispatch uses of `LazyContext`. -/
structure LazyContext where
  Ctx : Type
  ofInstruction : List AccountView → List UInt8 → Ctx
  instructionData : Ctx → List UInt8
  nextAccount : Ctx → Except ProgramError AccountView × Ctx
  skip : Ctx → Nat → Except ProgramError Unit × Ctx

/-- From `ctx` the accounts come in order, and then no more. -/
def LazyContext.Yields (lz : LazyContext) (ctx : lz.Ctx) (accounts : List AccountView) : Prop :=
  Cursor.Yields lz.nextAccount .ok (.error .notEnoughAccountKeys) ctx accounts

structure LazyContext.Lawful (lz : LazyContext) : Prop where
  givesData : ∀ accounts data, lz.instructionData (lz.ofInstruction accounts data) = data
  givesAccounts : ∀ accounts data, lz.Yields (lz.ofInstruction accounts data) accounts
  skips : ∀ ctx accounts n, lz.Yields ctx accounts → n ≤ accounts.length →
    (lz.skip ctx n).1 = .ok () ∧ lz.Yields (lz.skip ctx n).2 (accounts.drop n)
  skipsPast : ∀ ctx accounts n, lz.Yields ctx accounts → accounts.length < n →
    (lz.skip ctx n).1 = .error .notEnoughAccountKeys ∨
      ((lz.skip ctx n).1 = .ok () ∧ lz.Yields (lz.skip ctx n).2 [])

structure Parsed (Ctx : Type) where
  account : AccountView
  rest : Ctx

section Lazy

variable (lz : LazyContext)

def nextAccount (ctx : lz.Ctx) : Program (Parsed lz.Ctx) := do
  let account ← Exec.lift (propagate (lz.nextAccount ctx).1)
  pure ⟨account, (lz.nextAccount ctx).2⟩

def skip (ctx : lz.Ctx) (n : Nat) : Program lz.Ctx := do
  Exec.lift (propagate (lz.skip ctx n).1)
  pure (lz.skip ctx n).2

def processLazy (segmentMut : SegmentMut) (ctx : lz.Ctx) : Program Unit :=
  match lz.instructionData ctx with
  | [] => Exec.stop (.error .invalidInstructionData)
  | disc :: _ =>
      match disc with
      | 0 => handlePing
      | 1 => do
          let ctx ← skip lz ctx 1
          let vault ← nextAccount lz ctx
          handleGetBalance vault.account
      | 2 => do
          let user ← nextAccount lz ctx
          let vault ← nextAccount lz user.rest
          handleAuthorize user.account vault.account
      | 3 => do
          let user ← nextAccount lz ctx
          let vault ← nextAccount lz user.rest
          handleCounter segmentMut user.account vault.account
      | 4 => do
          let user ← nextAccount lz ctx
          let vault ← nextAccount lz user.rest
          let systemProgram ← nextAccount lz vault.rest
          handleDeposit user.account vault.account systemProgram.account
      | 5 => do
          let user ← nextAccount lz ctx
          let vault ← nextAccount lz user.rest
          handleWithdraw user.account vault.account
      | 6 => do
          let a ← nextAccount lz ctx
          let b ← nextAccount lz a.rest
          let c ← nextAccount lz b.rest
          let d ← nextAccount lz c.rest
          let e ← nextAccount lz d.rest
          let f ← nextAccount lz e.rest
          let g ← nextAccount lz f.rest
          let h ← nextAccount lz g.rest
          handleSweep [a.account, b.account, c.account, d.account, e.account, f.account,
            g.account, h.account]
      | 7 => do
          let a ← nextAccount lz ctx
          let b ← nextAccount lz a.rest
          let c ← nextAccount lz b.rest
          let d ← nextAccount lz c.rest
          let e ← nextAccount lz d.rest
          let f ← nextAccount lz e.rest
          let g ← nextAccount lz f.rest
          let h ← nextAccount lz g.rest
          handleFlush [a.account, b.account, c.account, d.account, e.account, f.account,
            g.account, h.account]
      | _ => Exec.stop (.error .invalidInstructionData)

end Lazy

/-- The lawful context that holds the accounts not yet handed out. -/
def listContext : LazyContext where
  Ctx := List AccountView × List UInt8
  ofInstruction := fun accounts data => (accounts, data)
  instructionData := fun ctx => ctx.2
  nextAccount := fun ctx =>
    match ctx.1 with
    | [] => (.error .notEnoughAccountKeys, ctx)
    | view :: rest => (.ok view, (rest, ctx.2))
  skip := fun ctx n =>
    if n ≤ ctx.1.length then (.ok (), (ctx.1.drop n, ctx.2))
    else (.error .notEnoughAccountKeys, ctx)

theorem listContext_yields_iff {xs : List AccountView} {data : List UInt8} :
    ∀ {accounts : List AccountView}, listContext.Yields (xs, data) accounts ↔ xs = accounts := by
  induction xs with
  | nil =>
      intro accounts
      cases accounts with
      | nil => simp [LazyContext.Yields, Cursor.Yields, listContext]
      | cons a rest => simp [LazyContext.Yields, Cursor.Yields, listContext]
  | cons x others ih =>
      intro accounts
      cases accounts with
      | nil => simp [LazyContext.Yields, Cursor.Yields, listContext]
      | cons a rest =>
          change (Except.ok x = Except.ok a ∧ listContext.Yields (others, data) rest) ↔ _
          rw [ih, Except.ok.injEq, List.cons.injEq]

theorem listContext_lawful : listContext.Lawful where
  givesData := fun _ _ => rfl
  givesAccounts := fun _ _ => listContext_yields_iff.mpr rfl
  skips := by
    intro ctx accounts n yields enough
    cases listContext_yields_iff.mp yields
    have skipped : listContext.skip ctx n = (.ok (), (ctx.1.drop n, ctx.2)) := if_pos enough
    rw [skipped]
    exact ⟨rfl, listContext_yields_iff.mpr rfl⟩
  skipsPast := by
    intro ctx accounts n yields short
    cases listContext_yields_iff.mp yields
    have refused : listContext.skip ctx n = (.error .notEnoughAccountKeys, ctx) :=
      if_neg (Nat.not_le.mpr short)
    rw [refused]
    exact .inl rfl

end HopperBench.LazyDispatchVault
