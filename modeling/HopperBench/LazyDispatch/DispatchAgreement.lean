import HopperBench.LazyDispatch.LazyDispatchVault

/-!
# Eager and lazy dispatch agree

Each build takes accounts in its own way: the eager one matches a prefix of the
slice at once, the lazy one asks for one account after the other.  The eager
dispatch looks at no more than eight accounts, and a context that yields the
accounts in order refuses exactly where the prefix is too short.  In either
build only the counter writes.
-/

set_option autoImplicit false

namespace HopperBench.DispatchAgreement

open StoppingRun LittleEndian CheckedWord HopperBench.Solana HopperBench.LazyDispatchVault

/-! ## The eager dispatch reads a prefix -/

theorem allEight_run (accounts : List AccountView) (m : Machine) :
    (allEight accounts).run m =
      if 8 ≤ accounts.length then (.ok (accounts.take 8), m)
      else (.error (.error .notEnoughAccountKeys), m) := by
  by_cases enough : 8 ≤ accounts.length
  · have passes : (ensure (¬accounts.length < 8) .notEnoughAccountKeys).run m = (.ok (), m) :=
      ensure_eq_ok.mpr ⟨Nat.not_lt.mpr enough, rfl⟩
    have read := elementsAt_range accounts 8 0 (by omega) (by omega)
    rw [allEight, Exec.run_bind_ok passes, if_pos enough, Exec.run_lift]
    exact congrArg (·, m) read
  · have stops : (ensure (¬accounts.length < 8) .notEnoughAccountKeys).run m =
        (.error (.error .notEnoughAccountKeys), m) := by
      rw [run_ensure, if_neg (fun least => enough (Nat.not_lt.mp least))]
    rw [allEight, Exec.run_bind_error stops, if_neg enough]

theorem allEight_take (accounts : List AccountView) :
    allEight (accounts.take 8) = allEight accounts := by
  funext m
  change (allEight (accounts.take 8)).run m = (allEight accounts).run m
  rw [allEight_run, allEight_run, List.take_take, List.length_take]
  have same : 8 ≤ min 8 accounts.length ↔ 8 ≤ accounts.length := by omega
  simp only [same, Nat.min_self]

theorem processEager_take (segmentMut : SegmentMut) (programId : Address)
    (accounts : List AccountView) (data : List UInt8) :
    processEager segmentMut programId (accounts.take 8) data =
      processEager segmentMut programId accounts data := by
  unfold processEager
  rw [allEight_take]
  match accounts with
  | [] => rfl
  | [_] => rfl
  | [_, _] => rfl
  | _ :: _ :: _ :: _ => rfl

theorem allEight_bind (accounts : List AccountView) (handle : List AccountView → Program Unit)
    (m : Machine) : (allEight accounts >>= handle).run m =
      (if 8 ≤ accounts.length then handle (accounts.take 8)
        else Exec.stop (.error .notEnoughAccountKeys)).run m := by
  rw [Exec.run_bind, allEight_run]
  by_cases enough : 8 ≤ accounts.length
  · simp only [if_pos enough]
  · simp only [if_neg enough]
    rfl

def onTwo (handle : AccountView → AccountView → Program Unit) : List AccountView → Program Unit
  | user :: vault :: _ => handle user vault
  | _ => Exec.stop (.error .notEnoughAccountKeys)

def onThree (handle : AccountView → AccountView → AccountView → Program Unit) :
    List AccountView → Program Unit
  | user :: vault :: systemProgram :: _ => handle user vault systemProgram
  | _ => Exec.stop (.error .notEnoughAccountKeys)

theorem onTwo_eq (handle : AccountView → AccountView → Program Unit)
    (accounts : List AccountView) : onTwo handle accounts =
      if 2 ≤ accounts.length then onTwo handle (accounts.take 2)
      else Exec.stop (.error .notEnoughAccountKeys) := by
  match accounts with
  | [] => rfl
  | [_] => rfl
  | _ :: _ :: rest => simp [onTwo]

theorem onThree_eq (handle : AccountView → AccountView → AccountView → Program Unit)
    (accounts : List AccountView) : onThree handle accounts =
      if 3 ≤ accounts.length then onThree handle (accounts.take 3)
      else Exec.stop (.error .notEnoughAccountKeys) := by
  match accounts with
  | [] => rfl
  | [_] => rfl
  | [_, _] => rfl
  | _ :: _ :: _ :: rest => simp [onThree]

theorem take_eq_of_prefix {A : Type} {passed xs : List A} {n : Nat} (isPrefix : passed <+: xs)
    (enough : min n xs.length ≤ passed.length) : passed.take n = xs.take n := by
  have shape : passed = xs.take passed.length := List.prefix_iff_eq_take.mp isPrefix
  rcases Nat.le_total n passed.length with long | short
  · rw [shape, List.take_take, Nat.min_eq_left long]
  · rcases Nat.le_total n xs.length with below | above
    · have whole : n = passed.length := by omega
      rw [shape, List.take_take, ← whole, Nat.min_self]
    · have whole : xs.length ≤ passed.length := by omega
      rw [shape, List.take_of_length_le whole]

section Lazy

variable {lz : LazyContext} {ctx : lz.Ctx} {accounts : List AccountView} {m : Machine}

theorem nextAccount_nil (yields : lz.Yields ctx []) :
    (nextAccount lz ctx).run m = (.error (.error .notEnoughAccountKeys), m) := by
  have refused : (lz.nextAccount ctx).1 = .error .notEnoughAccountKeys := yields
  rw [nextAccount, refused]
  rfl

theorem nextAccount_cons {a : AccountView} {rest : List AccountView}
    (yields : lz.Yields ctx (a :: rest)) :
    (nextAccount lz ctx).run m = (.ok ⟨a, (lz.nextAccount ctx).2⟩, m) := by
  have given : (lz.nextAccount ctx).1 = .ok a := yields.1
  rw [nextAccount, given]
  rfl

def nextAccounts (lz : LazyContext) : Nat → lz.Ctx → (List AccountView → Program Unit) →
    Program Unit
  | 0, _, handle => handle []
  | n + 1, ctx, handle => do
      let taken ← nextAccount lz ctx
      nextAccounts lz n taken.rest fun others => handle (taken.account :: others)

theorem nextAccounts_run : ∀ (n : Nat) {ctx : lz.Ctx} {accounts : List AccountView}
    (handle : List AccountView → Program Unit), lz.Yields ctx accounts →
      (nextAccounts lz n ctx handle).run m =
        (if n ≤ accounts.length then handle (accounts.take n)
          else Exec.stop (.error .notEnoughAccountKeys)).run m := by
  intro n
  induction n with
  | zero => intro ctx accounts handle _; rfl
  | succ n ih =>
      intro ctx accounts handle yields
      rw [nextAccounts]
      cases accounts with
      | nil =>
          rw [Exec.run_bind_error (nextAccount_nil yields), if_neg (by simp)]
          rfl
      | cons a rest =>
          rw [Exec.run_bind_ok (nextAccount_cons yields), ih _ yields.2, List.length_cons]
          simp only [Nat.add_le_add_iff_right, List.take_succ_cons]

theorem skip_run (lawful : lz.Lawful) (yields : lz.Yields ctx accounts) (n : Nat) :
    (∃ ctx', (skip lz ctx n).run m = (.ok ctx', m) ∧ lz.Yields ctx' (accounts.drop n)) ∨
      accounts.length < n ∧ (skip lz ctx n).run m = (.error (.error .notEnoughAccountKeys), m) := by
  have granted : (lz.skip ctx n).1 = .ok () →
      (skip lz ctx n).run m = (.ok (lz.skip ctx n).2, m) := by
    intro skipped
    rw [skip, skipped]
    rfl
  rcases Nat.lt_or_ge accounts.length n with past | within
  · rcases lawful.skipsPast ctx accounts n yields past with refused | ⟨skipped, ended⟩
    · refine .inr ⟨past, ?_⟩
      rw [skip, refused]
      rfl
    · rw [← List.drop_of_length_le (Nat.le_of_lt past)] at ended
      exact .inl ⟨_, granted skipped, ended⟩
  · obtain ⟨skipped, left⟩ := lawful.skips ctx accounts n yields within
    exact .inl ⟨_, granted skipped, left⟩

theorem skip_next (lawful : lz.Lawful) (yields : lz.Yields ctx accounts)
    (handle : AccountView → Program Unit) :
    (do
      let ctx ← skip lz ctx 1
      let vault ← nextAccount lz ctx
      handle vault.account : Program Unit).run m =
    (match accounts with
      | _ :: vault :: _ => handle vault
      | _ => Exec.stop (.error .notEnoughAccountKeys)).run m := by
  rcases skip_run (m := m) lawful yields 1 with ⟨ctx', skipped, left⟩ | ⟨short, refused⟩
  · rw [Exec.run_bind_ok skipped]
    match accounts, left with
    | [], left => exact Exec.run_bind_error (nextAccount_nil left)
    | [_], left => exact Exec.run_bind_error (nextAccount_nil left)
    | _ :: _ :: _, left => exact Exec.run_bind_ok (nextAccount_cons left)
  · rw [Exec.run_bind_error refused]
    match accounts, short with
    | [], _ => rfl

theorem processEager_run_eq (lawful : lz.Lawful) (segmentMut : SegmentMut) (programId : Address)
    (accounts : List AccountView) (data : List UInt8) :
    (processEager segmentMut programId accounts data).run m =
      (processLazy lz segmentMut (lz.ofInstruction accounts data)).run m := by
  have yields := lawful.givesAccounts accounts data
  have two : ∀ handle, (onTwo handle accounts).run m =
      (nextAccounts lz 2 (lz.ofInstruction accounts data) (onTwo handle)).run m := by
    intro handle
    rw [onTwo_eq, nextAccounts_run 2 _ yields]
  have three : ∀ handle, (onThree handle accounts).run m =
      (nextAccounts lz 3 (lz.ofInstruction accounts data) (onThree handle)).run m := by
    intro handle
    rw [onThree_eq, nextAccounts_run 3 _ yields]
  have eight : ∀ handle, (allEight accounts >>= handle).run m =
      (nextAccounts lz 8 (lz.ofInstruction accounts data) handle).run m := by
    intro handle
    rw [allEight_bind, nextAccounts_run 8 _ yields]
  rw [processLazy, lawful.givesData]
  unfold processEager
  split
  case h_1 => rfl
  case h_2 =>
    split
    case h_1 => rfl
    case h_2 => exact (skip_next lawful yields handleGetBalance).symm
    case h_3 => exact two handleAuthorize
    case h_4 => exact two (handleCounter segmentMut)
    case h_5 => exact three handleDeposit
    case h_6 => exact two handleWithdraw
    case h_7 => exact eight handleSweep
    case h_8 => exact eight handleFlush
    case h_9 => rfl

end Lazy

/-! ## Only the counter writes -/

/-- The counter: the little-endian word in bytes 0..8 of the account's data. -/
def counterOf (ledger : Ledger) (vault : AccountView) : UInt64 :=
  u64OfBytes ((ledger vault.address).data.take 8)

structure Counted (user vault : AccountView) (before after : Machine) : Prop where
  userSigned : user.isSigner = true
  viewed : 8 ≤ (before.ledger vault.address).data.length
  room : (counterOf before.ledger vault).toNat + 1 < 2 ^ 64
  written : after = ⟨before.ledger.setData vault.address
    (List.ofFn (u64Bytes (counterOf before.ledger vault + 1)) ++
      (before.ledger vault.address).data.drop 8), before.cpis, before.writes ++ [vault]⟩

theorem Counted.data {user vault : AccountView} {before after : Machine}
    (counted : Counted user vault before after) :
    (after.ledger vault.address).data =
      List.ofFn (u64Bytes (counterOf before.ledger vault + 1)) ++
        (before.ledger vault.address).data.drop 8 := by
  rw [counted.written]
  exact data_setData _ _ _

theorem Counted.counter_succ {user vault : AccountView} {before after : Machine}
    (counted : Counted user vault before after) :
    (counterOf after.ledger vault).toNat = (counterOf before.ledger vault).toNat + 1 := by
  have reads : counterOf after.ledger vault = counterOf before.ledger vault + 1 := by
    rw [counterOf, counted.data, List.take_left' (by simp), u64OfBytes_u64Bytes]
  rw [reads, UInt64.toNat_add]
  exact Nat.mod_eq_of_lt counted.room

/-- Past the counter, and in every other account, nothing changes. -/
theorem Counted.frame {user vault : AccountView} {before after : Machine}
    (counted : Counted user vault before after) :
    (after.ledger vault.address).data.drop 8 = (before.ledger vault.address).data.drop 8 ∧
      after.ledger.balances = before.ledger.balances ∧
      ∀ a, a ≠ vault.address → after.ledger a = before.ledger a := by
  refine ⟨?_, ?_, ?_⟩
  · rw [counted.data]
    exact List.drop_left' (by simp)
  · rw [counted.written]
    exact balances_setData _ _ _
  · intro a other
    rw [counted.written]
    exact setData_other _ other _

/-- What an instruction may leave behind: nothing, or the counter of the second
account raised by discriminator 3 with a signing first account. -/
inductive Leaves (accounts : List AccountView) (data : List UInt8) (before : Machine) :
    Except Abort Unit × Machine → Prop where
  | unchanged (result : Except Abort Unit) : Leaves accounts data before (result, before)
  | counted {user vault : AccountView} {others : List AccountView} {payload : List UInt8}
      {after : Machine} (accountsExact : accounts = user :: vault :: others)
      (dataExact : data = 3 :: payload) (counts : Counted user vault before after) :
      Leaves accounts data before (.ok (), after)

section Frame

variable {accounts : List AccountView} {data : List UInt8} {m : Machine}

theorem leaves_same (result : Except Abort Unit) {after : Machine} (same : after = m) :
    Leaves accounts data m (result, after) := by
  rw [same]
  exact .unchanged result

theorem leaves_of_keeps {x : Program Unit} (keeps : x.Keeps (· = m)) :
    Leaves accounts data m (x.run m) :=
  Exec.meets_outcome.mp ((keeps m rfl).mono (fun _ _ same => leaves_same _ same)
    fun _ _ same => leaves_same _ same)

theorem signedAndWritable_keeps (user vault : AccountView) :
    (signedAndWritable user vault).Keeps (· = m) :=
  (Exec.keeps_require _ _).bind fun _ => Exec.keeps_require _ _

theorem allEight_keeps (handle : List AccountView → Program Unit)
    (keeps : ∀ refs, (handle refs).Keeps (· = m)) :
    (allEight accounts >>= handle).Keeps (· = m) := by
  apply Exec.Keeps.bind ((Exec.keeps_require _ _).bind fun _ => Exec.keeps_lift _)
  exact keeps

theorem handleSweep_keeps (refs : List AccountView) : (handleSweep refs).Keeps (· = m) := by
  apply Exec.keeps_forM
  intro acct
  exact (Exec.keeps_gets _).bind fun _ => Exec.keeps_pure _

theorem handleFlush_keeps (refs : List AccountView) : (handleFlush refs).Keeps (· = m) := by
  refine Exec.Keeps.bind (Exec.keeps_foldlM ?_ refs 0) fun _ => Exec.keeps_pure _
  intro total acct
  exact (Exec.keeps_gets _).bind fun _ => Exec.keeps_pure _

theorem handleCounter_meets {segmentMut : SegmentMut} (viewLawful : segmentMut.Lawful)
    (user vault : AccountView) :
    (handleCounter segmentMut user vault).Meets m (fun _ after => Counted user vault m after)
      fun _ after => after = m := by
  rw [handleCounter, Exec.meets_bind, ensure, Exec.meets_require]
  refine ⟨?_, fun _ => rfl⟩
  intro signed
  rw [Exec.meets_bind, account, Exec.meets_gets, Exec.meets_bind, Exec.meets_lift]
  refine ⟨?_, fun _ _ => rfl⟩
  intro _ granted
  have viewed := viewLawful vault (m.ledger vault.address) (propagate_eq_ok.mp granted)
  rw [Exec.meets_bind, meets_orFail]
  refine ⟨?_, fun _ => rfl⟩
  intro next raised
  obtain ⟨room, rfl⟩ := checkedAdd_eq_some_add.mp raised
  exact ⟨signed, viewed, room, rfl⟩

theorem processEager_leaves {segmentMut : SegmentMut} (viewLawful : segmentMut.Lawful)
    (programId : Address) :
    Leaves accounts data m ((processEager segmentMut programId accounts data).run m) := by
  have refuses : ∀ e, Leaves accounts data m ((Exec.stop (.error e) : Program Unit).run m) :=
    fun _ => .unchanged _
  unfold processEager
  split
  case h_1 => exact refuses _
  case h_2 disc payload =>
    split
    case h_1 => exact .unchanged _
    case h_2 =>
      split
      case h_1 => exact leaves_of_keeps ((Exec.keeps_gets _).bind fun _ => Exec.keeps_pure _)
      case h_2 => exact refuses _
    case h_3 =>
      split
      case h_1 user vault _ => exact leaves_of_keeps (signedAndWritable_keeps user vault)
      case h_2 => exact refuses _
    case h_4 =>
      split
      case h_1 user vault others =>
        exact Exec.meets_outcome.mp ((handleCounter_meets viewLawful user vault).mono
          (fun _ _ counts => .counted rfl rfl counts) fun _ _ same => leaves_same _ same)
      case h_2 => exact refuses _
    case h_5 =>
      split
      case h_1 => exact .unchanged _
      case h_2 => exact refuses _
    case h_6 =>
      split
      case h_1 user vault _ => exact leaves_of_keeps (signedAndWritable_keeps user vault)
      case h_2 => exact refuses _
    case h_7 => exact leaves_of_keeps (allEight_keeps handleSweep handleSweep_keeps)
    case h_8 => exact leaves_of_keeps (allEight_keeps handleFlush handleFlush_keeps)
    case h_9 => exact refuses _

end Frame

/-- Whatever account slice the eager entry point passes on, both builds return
the same result and leave the same accounts, and the counter is all that either
can change. -/
theorem dispatch_agrees {lz : LazyContext} (lawful : lz.Lawful) {segmentMut : SegmentMut}
    (viewLawful : segmentMut.Lawful) (programId : Address) (accounts passed : List AccountView)
    (isPrefix : passed <+: accounts) (firstEight : min 8 accounts.length ≤ passed.length)
    (data : List UInt8) (m : Machine) :
    (processEager segmentMut programId passed data).run m =
        (processLazy lz segmentMut (lz.ofInstruction accounts data)).run m ∧
      Leaves accounts data m ((processEager segmentMut programId passed data).run m) ∧
      Leaves accounts data m
        ((processLazy lz segmentMut (lz.ofInstruction accounts data)).run m) := by
  have same : processEager segmentMut programId passed data =
      processEager segmentMut programId accounts data := by
    rw [← processEager_take, take_eq_of_prefix isPrefix firstEight, processEager_take]
  have leaves : Leaves accounts data m ((processEager segmentMut programId accounts data).run m) :=
    processEager_leaves viewLawful programId
  rw [same, ← processEager_run_eq lawful]
  exact ⟨rfl, leaves, leaves⟩

def nineAccounts : List AccountView :=
  (List.range 9).map fun i => ⟨fun _ => UInt8.ofNat i, i == 0, true⟩

/-- Every account holds the counter 255 and one more byte. -/
def counterLedger : Ledger := fun a => ⟨1, a, [255, 0, 0, 0, 0, 0, 0, 0, 7]⟩

theorem dispatch_agrees_counter :
    ((processEager writableSegment (fun _ => 0xDD) (nineAccounts.take 8) [3]).run
        (Machine.start counterLedger) =
      (processLazy listContext writableSegment (listContext.ofInstruction nineAccounts [3])).run
        (Machine.start counterLedger)) ∧
      (((processLazy listContext writableSegment
          (listContext.ofInstruction nineAccounts [3])).run
            (Machine.start counterLedger)).2.ledger fun _ => 1).data =
        [0, 1, 0, 0, 0, 0, 0, 0, 7] :=
  ⟨(dispatch_agrees listContext_lawful writableSegment_lawful (fun _ => 0xDD) nineAccounts
      (nineAccounts.take 8) (List.take_prefix 8 nineAccounts) (by decide) [3]
      (Machine.start counterLedger)).1, by decide +kernel⟩

end HopperBench.DispatchAgreement
