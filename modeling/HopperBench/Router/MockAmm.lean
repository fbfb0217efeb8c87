import HopperBench.Library.CheckedWord
import HopperBench.Library.Exchanges
import HopperBench.Router.RouteWire

/-!
# The swap venue

`SWAP` debits `amount` lamports from the user to the pool and pays out
`floor(amount * rate_num / rate_den)` from the pool to the user.  Every
post-swap balance is computed from readings taken before either write, and the
two writes follow one after the other.
-/

set_option autoImplicit false

namespace HopperBench.MockAmm

open StoppingRun LittleEndian CheckedWord HopperBench.Solana HopperBench.RouteWire

def swapDataLen : Nat := 17

def swapDiscriminator : UInt8 := 0

structure SwapArgs where
  rateNum : UInt32
  rateDen : UInt32
  amount : UInt64
deriving DecidableEq

def parseSwap (data : List UInt8) : Except Abort SwapArgs := do
  if data.length ≠ swapDataLen then
    .error (.error .invalidInstructionData)
  else
    let disc ← index data 0
    if disc ≠ swapDiscriminator then
      .error (.error .invalidInstructionData)
    else
      let rateNum ← u32At data [1, 2, 3, 4]
      let rateDen ← u32At data [5, 6, 7, 8]
      if rateDen = 0 then
        .error (.error .invalidInstructionData)
      else
        let amount ← u64At data [9, 10, 11, 12, 13, 14, 15, 16]
        return { rateNum, rateDen, amount }

/-- `floor(amount * rate_num / rate_den)` through `u128`. -/
def swapOut (amount : UInt64) (rateNum rateDen : UInt32) : Except Abort UInt64 := do
  let product ← u128 (amount.toNat * rateNum.toNat)
  if rateDen = 0 then
    .error .divisionByZero
  else
    okOr (narrow (product / rateDen.toNat)) .arithmeticOverflow

def processSwap (programId : Address) (accounts : List AccountView) (args : SwapArgs) :
    Program Unit :=
  match accounts with
  | pool :: user :: _ => do
      let poolOwner ← owner pool
      ensure (poolOwner = programId) .invalidAccountOwner
      ensure (pool.isWritable = true ∧ user.isWritable = true) .invalidAccountData
      let out ← Exec.lift (swapOut args.amount args.rateNum args.rateDen)
      let userLamports ← lamports user
      let userAfterDebit ← orFail (checkedSub userLamports args.amount) .insufficientFunds
      let poolLamports ← lamports pool
      let poolAfterCredit ← orFail (checkedAdd poolLamports args.amount) .arithmeticOverflow
      let poolFinal ← orFail (checkedSub poolAfterCredit out) .insufficientFunds
      let userFinal ← orFail (checkedAdd userAfterDebit out) .arithmeticOverflow
      setLamports pool poolFinal
      setLamports user userFinal
  | _ => Exec.stop (.error .notEnoughAccountKeys)

def processInstruction (programId : Address) (accounts : List AccountView)
    (data : List UInt8) : Program Unit := do
  let args ← Exec.lift (parseSwap data)
  processSwap programId accounts args

/-- What the parser reads from seventeen bytes. -/
def readArgs (data : List UInt8) : SwapArgs where
  rateNum := u32OfBytes ((data.drop 1).take 4)
  rateDen := u32OfBytes ((data.drop 5).take 4)
  amount := u64OfBytes ((data.drop 9).take 8)

theorem parseSwap_eq (data : List UInt8) :
    parseSwap data =
      if data.length = 17 ∧ data.head? = some 0 ∧ (readArgs data).rateDen ≠ 0 then
        .ok (readArgs data)
      else .error (.error .invalidInstructionData) := by
  unfold parseSwap swapDataLen swapDiscriminator
  by_cases exact : data.length = 17
  · have numRead := u32At_range data 1 (by omega) (by omega)
    have denRead := u32At_range data 5 (by omega) (by omega)
    have amountRead := u64At_range data 9 (by omega) (by omega)
    have discRead : index data 0 = .ok data[0] := index_of_lt (by omega) (by omega)
    have head : data.head? = some data[0] := by
      rw [List.head?_eq_getElem?, List.getElem?_eq_getElem]
    simp only [Nat.reduceAdd] at numRead denRead amountRead
    rw [if_neg (not_not.mpr exact)]
    simp only [bind, Except.bind, discRead, head, Option.some.injEq]
    by_cases disc : data[0] = 0
    · rw [if_neg (not_not.mpr disc)]
      simp only [numRead, denRead]
      by_cases zero : u32OfBytes ((data.drop 5).take 4) = 0
      · have rejected : ¬(data.length = 17 ∧ data[0] = 0 ∧ (readArgs data).rateDen ≠ 0) :=
          fun accepted => accepted.2.2 zero
        rw [if_pos zero, if_neg rejected]
      · rw [if_neg zero, if_pos ⟨exact, disc, zero⟩, amountRead]
        rfl
    · have rejected : ¬(data.length = 17 ∧ data[0] = 0 ∧ (readArgs data).rateDen ≠ 0) :=
        fun accepted => disc accepted.2.1
      rw [if_pos disc, if_neg rejected]
  · have rejected : ¬(data.length = 17 ∧ data.head? = some 0 ∧ (readArgs data).rateDen ≠ 0) :=
      fun accepted => exact accepted.1
    rw [if_pos exact, if_neg rejected]

theorem readArgs_encode (rateNum rateDen : UInt32) (amount : UInt64) :
    readArgs (encodeSwapWith 0 rateNum rateDen amount) = ⟨rateNum, rateDen, amount⟩ := by
  have dropNum : (encodeSwapWith 0 rateNum rateDen amount).drop 1 =
      List.ofFn (u32Bytes rateNum) ++
        (List.ofFn (u32Bytes rateDen) ++ List.ofFn (u64Bytes amount)) := by
    rw [encodeSwapWith_eq, List.drop_succ_cons, List.drop_zero]
  have dropDen : (encodeSwapWith 0 rateNum rateDen amount).drop 5 =
      List.ofFn (u32Bytes rateDen) ++ List.ofFn (u64Bytes amount) := by
    have split : 5 = 1 + 4 := rfl
    rw [split, ← List.drop_drop, dropNum, List.drop_left' (by simp)]
  have dropAmount : (encodeSwapWith 0 rateNum rateDen amount).drop 9 =
      List.ofFn (u64Bytes amount) := by
    have split : 9 = 5 + 4 := rfl
    rw [split, ← List.drop_drop, dropDen, List.drop_left' (by simp)]
  unfold readArgs
  rw [dropNum, dropDen, dropAmount, List.take_left' (by simp), List.take_left' (by simp),
    List.take_of_length_le (by simp), u32OfBytes_u32Bytes, u32OfBytes_u32Bytes,
    u64OfBytes_u64Bytes]

theorem parseSwap_encode (rateNum rateDen : UInt32) (amount : UInt64) :
    parseSwap (encodeSwapWith 0 rateNum rateDen amount) =
      if rateDen ≠ 0 then .ok ⟨rateNum, rateDen, amount⟩
      else .error (.error .invalidInstructionData) := by
  rw [parseSwap_eq, readArgs_encode]
  simp [encodeSwapWith]

/-- An encoder and the venue's parser are inverse to each other. -/
structure Wire (encoder : UInt32 → UInt32 → UInt64 → List UInt8) : Prop where
  decodes : ∀ rateNum rateDen amount, rateDen ≠ 0 →
    parseSwap (encoder rateNum rateDen amount) = .ok ⟨rateNum, rateDen, amount⟩
  refuses : ∀ rateNum amount,
    parseSwap (encoder rateNum 0 amount) = .error (.error .invalidInstructionData)
  encodes : ∀ data args, parseSwap data = .ok args →
    data = encoder args.rateNum args.rateDen args.amount

theorem encode_readArgs {data : List UInt8} (exact : data.length = 17)
    (disc : data.head? = some 0) :
    encodeSwapWith 0 (readArgs data).rateNum (readArgs data).rateDen (readArgs data).amount =
      data := by
  obtain ⟨rest, rfl⟩ := List.head?_eq_some_iff.mp disc
  rw [List.length_cons] at exact
  have restLength : rest.length = 16 := by omega
  have amountExact : (rest.drop 8).take 8 = rest.drop 8 :=
    List.take_of_length_le (by simp [restLength])
  have tail : rest.drop 8 = (rest.drop 4).drop 4 := by rw [List.drop_drop]
  simp only [encodeSwapWith_eq, readArgs, List.drop_succ_cons, List.drop_zero]
  rw [amountExact, u32Bytes_u32OfBytes (by simp [restLength]),
    u32Bytes_u32OfBytes (by simp [restLength]), u64Bytes_u64OfBytes (by simp [restLength]), tail,
    List.take_append_drop, List.take_append_drop]

theorem wire_encodeSwapWith : Wire (encodeSwapWith 0) where
  decodes := by
    intro rateNum rateDen amount nonzero
    rw [parseSwap_encode, if_pos nonzero]
  refuses := by
    intro rateNum amount
    rw [parseSwap_encode, if_neg (not_not.mpr rfl)]
  encodes := by
    intro data args parsed
    rw [parseSwap_eq] at parsed
    split at parsed
    case isTrue accepted =>
      obtain rfl : readArgs data = args := Except.ok.inj parsed
      exact (encode_readArgs accepted.1 accepted.2.1).symm
    case isFalse => cases parsed

theorem swapOut_product (amount : UInt64) (rateNum : UInt32) :
    amount.toNat * rateNum.toNat < 2 ^ 128 := by
  have amountBound : amount.toNat < 2 ^ 64 := amount.toNat_lt
  have numBound : rateNum.toNat < 2 ^ 32 := rateNum.toNat_lt
  calc amount.toNat * rateNum.toNat
      ≤ 2 ^ 64 * 2 ^ 32 := Nat.mul_le_mul (Nat.le_of_lt amountBound) (Nat.le_of_lt numBound)
    _ < 2 ^ 128 := by decide

theorem swapOut_eq (amount : UInt64) {rateNum rateDen : UInt32} (nonzero : rateDen ≠ 0) :
    swapOut amount rateNum rateDen =
      okOr (narrow (amount.toNat * rateNum.toNat / rateDen.toNat)) .arithmeticOverflow := by
  unfold swapOut
  rw [u128_of_lt (swapOut_product amount rateNum)]
  simp only [bind, Except.bind, if_neg nonzero]

theorem swapOut_eq_ok {amount out : UInt64} {rateNum rateDen : UInt32} :
    swapOut amount rateNum rateDen = .ok out ↔
      rateDen ≠ 0 ∧ out.toNat = amount.toNat * rateNum.toNat / rateDen.toNat := by
  by_cases zero : rateDen = 0
  · unfold swapOut
    rw [u128_of_lt (swapOut_product amount rateNum)]
    simp [bind, Except.bind, zero]
  · rw [swapOut_eq amount zero, okOr_eq_ok, narrow_eq_some]
    exact (and_iff_right zero).symm

/-! ## The swap -/

/-- What a successful swap found and wrote.  All readings are of the ledger
before the first write. -/
structure Swapped (programId : Address) (pool user : AccountView) (args : SwapArgs)
    (before after : Machine) (out poolFinal userFinal : UInt64) : Prop where
  poolOwned : (before.ledger pool.address).owner = programId
  poolWritable : pool.isWritable = true
  userWritable : user.isWritable = true
  payout : swapOut args.amount args.rateNum args.rateDen = .ok out
  userCovers : args.amount.toNat ≤ before.ledger.balances user.address
  poolFits : before.ledger.balances pool.address + args.amount.toNat < 2 ^ 64
  poolFinal_eq : poolFinal.toNat + out.toNat =
    before.ledger.balances pool.address + args.amount.toNat
  userFinal_eq : userFinal.toNat + args.amount.toNat =
    before.ledger.balances user.address + out.toNat
  written : after = ⟨(before.ledger.setLamports pool.address poolFinal).setLamports user.address
    userFinal, before.cpis, before.writes ++ [pool] ++ [user]⟩

theorem processSwap_eq_ok {programId : Address} {pool user : AccountView}
    {rest : List AccountView} {args : SwapArgs} {before after : Machine} {u : Unit} :
    (processSwap programId (pool :: user :: rest) args).run before = (.ok u, after) ↔
      ∃ out poolFinal userFinal,
        Swapped programId pool user args before after out poolFinal userFinal := by
  simp only [processSwap, run_owner_bind, ensure_bind_eq_ok, Exec.lift_bind_eq_ok,
    run_lamports_bind, orFail_bind_eq_ok, checkedSub_eq_some, checkedAdd_eq_some]
  constructor
  · intro given
    obtain ⟨owned, ⟨poolWritable, userWritable⟩, out, payout, debited, debit, credited, credit,
      poolFinal, pay, userFinal, receive, written⟩ := given
    have creditedBound : credited.toNat < 2 ^ 64 := credited.toNat_lt
    cases written
    refine ⟨out, poolFinal, userFinal, owned, poolWritable, userWritable, payout, ?_, ?_, ?_, ?_,
      rfl⟩ <;> simp only [Ledger.balances] <;> omega
  · intro given
    obtain ⟨out, poolFinal, userFinal, swapped⟩ := given
    obtain ⟨owned, poolWritable, userWritable, payout, covers, fits, pay, receive, written⟩ :=
      swapped
    obtain ⟨debited, debit⟩ := exists_difference covers
    obtain ⟨credited, credit⟩ := exists_sum fits
    simp only [Ledger.balances] at pay receive
    refine ⟨owned, ⟨poolWritable, userWritable⟩, out, payout, debited, debit, credited, credit,
      poolFinal, by omega, userFinal, by omega, ?_⟩
    rw [written]
    rfl

section Exchange

variable {programId : Address} {pool user : AccountView} {args : SwapArgs}
  {before after : Machine} {out poolFinal userFinal : UInt64}

theorem Swapped.paid_le
    (swapped : Swapped programId pool user args before after out poolFinal userFinal) :
    out.toNat ≤ before.ledger.balances pool.address + args.amount.toNat := by
  have pay := swapped.poolFinal_eq
  omega

theorem Swapped.balances_eq
    (swapped : Swapped programId pool user args before after out poolFinal userFinal) :
    after.ledger.balances =
      Function.update (Function.update before.ledger.balances pool.address poolFinal.toNat)
        user.address userFinal.toNat := by
  rw [swapped.written, balances_setLamports, balances_setLamports]

theorem Swapped.refines_exchange
    (swapped : Swapped programId pool user args before after out poolFinal userFinal)
    (distinct : pool.address ≠ user.address) :
    after.ledger.balances =
      Exchanges.exchange before.ledger.balances pool.address user.address args.amount.toNat
        out.toNat := by
  have covers := swapped.userCovers
  have pay := swapped.poolFinal_eq
  have receive := swapped.userFinal_eq
  rw [swapped.balances_eq]
  funext a
  by_cases atUser : a = user.address
  · subst atUser
    rw [Function.update_self, Exchanges.exchange_trader distinct]
    omega
  · rw [Function.update_of_ne atUser]
    by_cases atPool : a = pool.address
    · subst atPool
      rw [Function.update_self, Exchanges.exchange_pool distinct]
      omega
    · rw [Function.update_of_ne atPool, Exchanges.exchange_other atPool atUser]

/-- Aliased views share one balance, and the second write overwrites the first. -/
theorem Swapped.balances_aliased
    (swapped : Swapped programId pool user args before after out poolFinal userFinal)
    (same : pool.address = user.address) :
    after.ledger.balances =
      Function.update before.ledger.balances user.address userFinal.toNat := by
  rw [swapped.balances_eq, same, Function.update_idem]

end Exchange

/-! ## Conservation by the program's own writes -/

def distinctAccounts (accounts : List AccountView) : Finset Address :=
  (accounts.map AccountView.address).toFinset

def lamportsOver (accounts : List AccountView) (ledger : Ledger) : Nat :=
  ∑ a ∈ distinctAccounts accounts, ledger.balances a

theorem processInstruction_eq_ok {programId : Address} {pool user : AccountView}
    {rest : List AccountView} {data : List UInt8} {before after : Machine} {u : Unit} :
    (processInstruction programId (pool :: user :: rest) data).run before = (.ok u, after) ↔
      ∃ args out poolFinal userFinal, parseSwap data = .ok args ∧
        Swapped programId pool user args before after out poolFinal userFinal := by
  rw [processInstruction, Exec.lift_bind_eq_ok]
  simp only [processSwap_eq_ok, exists_and_left]

/-- Where the program returns `Ok`, its own writes keep the sum of the lamports of
the listed accounts. -/
def Conserves (programId : Address) (accounts : List AccountView) (data : List UInt8)
    (ledger : Ledger) : Prop :=
  ∀ after, (processInstruction programId accounts data).run (Machine.start ledger) =
    (.ok (), after) → lamportsOver accounts after.ledger = lamportsOver accounts ledger

/-- The checks of a swap, read off the instruction and the ledger it finds. -/
structure Passes (programId : Address) (pool user : AccountView) (data : List UInt8)
    (ledger : Ledger) (args : SwapArgs) (out : UInt64) : Prop where
  parsed : parseSwap data = .ok args
  poolOwned : (ledger pool.address).owner = programId
  poolWritable : pool.isWritable = true
  userWritable : user.isWritable = true
  payout : swapOut args.amount args.rateNum args.rateDen = .ok out
  userCovers : args.amount.toNat ≤ ledger.balances user.address
  poolFits : ledger.balances pool.address + args.amount.toNat < 2 ^ 64
  poolPays : out.toNat ≤ ledger.balances pool.address + args.amount.toNat
  userTakes : ledger.balances user.address - args.amount.toNat + out.toNat < 2 ^ 64

section Conservation

variable {programId : Address} {pool user : AccountView} {rest : List AccountView}
  {data : List UInt8} {ledger : Ledger} {args : SwapArgs} {out : UInt64}

theorem Swapped.passes {after : Machine} {poolFinal userFinal : UInt64}
    (parsed : parseSwap data = .ok args)
    (swapped : Swapped programId pool user args (Machine.start ledger) after out poolFinal
      userFinal) : Passes programId pool user data ledger args out := by
  have receive := swapped.userFinal_eq
  have covers := swapped.userCovers
  have userBound := userFinal.toNat_lt
  refine ⟨parsed, swapped.poolOwned, swapped.poolWritable, swapped.userWritable, swapped.payout,
    covers, swapped.poolFits, swapped.paid_le, ?_⟩
  simp only [Machine.start] at receive covers
  omega

theorem Passes.swapped {before : Machine}
    (passes : Passes programId pool user data before.ledger args out) :
    ∃ after poolFinal userFinal,
      Swapped programId pool user args before after out poolFinal userFinal := by
  have pays := passes.poolPays
  have covers := passes.userCovers
  have poolExact := toNat_ofNat_of_fits (Nat.lt_of_le_of_lt (Nat.sub_le _ out.toNat)
    passes.poolFits)
  have userExact := toNat_ofNat_of_fits passes.userTakes
  refine ⟨_, UInt64.ofNat (before.ledger.balances pool.address + args.amount.toNat - out.toNat),
    UInt64.ofNat (before.ledger.balances user.address - args.amount.toNat + out.toNat),
    passes.poolOwned, passes.poolWritable, passes.userWritable, passes.payout, covers,
    passes.poolFits, ?_, ?_, rfl⟩
  · rw [poolExact]
    exact Nat.sub_add_cancel pays
  · rw [userExact]
    omega

theorem accepted_iff_passes (rest : List AccountView) :
    (∃ after, (processInstruction programId (pool :: user :: rest) data).run
      (Machine.start ledger) = (.ok (), after)) ↔
      ∃ args out, Passes programId pool user data ledger args out := by
  constructor
  · intro accepted
    obtain ⟨after, accepted⟩ := accepted
    obtain ⟨args, out, _, _, parsed, swapped⟩ := processInstruction_eq_ok.mp accepted
    exact ⟨args, out, swapped.passes parsed⟩
  · intro given
    obtain ⟨args, out, passes⟩ := given
    obtain ⟨after, poolFinal, userFinal, swapped⟩ : ∃ after poolFinal userFinal, Swapped programId
        pool user args (Machine.start ledger) after out poolFinal userFinal := passes.swapped
    exact ⟨after, processInstruction_eq_ok.mpr
      ⟨args, out, poolFinal, userFinal, passes.parsed, swapped⟩⟩

theorem conserves_of_distinct (distinct : pool.address ≠ user.address) :
    Conserves programId (pool :: user :: rest) data ledger := by
  intro after accepted
  obtain ⟨args, out, _, _, _, swapped⟩ := processInstruction_eq_ok.mp accepted
  have poolMember : pool.address ∈ distinctAccounts (pool :: user :: rest) := by
    simp [distinctAccounts]
  have userMember : user.address ∈ distinctAccounts (pool :: user :: rest) := by
    simp [distinctAccounts]
  rw [lamportsOver, lamportsOver, swapped.refines_exchange distinct]
  exact Exchanges.sum_exchange _ poolMember userMember distinct swapped.userCovers swapped.paid_le

/-- On one account a swap leaves the payout in place of the amount. -/
theorem lamportsOver_aliased (rest : List AccountView) {after : Machine}
    {poolFinal userFinal : UInt64} (same : pool.address = user.address)
    (swapped : Swapped programId pool user args (Machine.start ledger) after out poolFinal
      userFinal) :
    lamportsOver (pool :: user :: rest) after.ledger + args.amount.toNat =
      lamportsOver (pool :: user :: rest) ledger + out.toNat := by
  have userMember : user.address ∈ distinctAccounts (pool :: user :: rest) := by
    simp [distinctAccounts]
  have receive := swapped.userFinal_eq
  have sums := Balances.sum_update (distinctAccounts (pool :: user :: rest))
    ledger.balances userMember userFinal.toNat
  rw [lamportsOver, lamportsOver, swapped.balances_aliased same]
  simp only [Machine.start] at receive ⊢
  omega

end Conservation

/-- The program conserves the lamports of its accounts exactly when the pool and the
user are different accounts, or the payout is the amount paid in, or the swap is
refused by one of its checks. -/
theorem swap_conserves_iff (programId : Address) (pool user : AccountView)
    (rest : List AccountView) (data : List UInt8) (ledger : Ledger) :
    Conserves programId (pool :: user :: rest) data ledger ↔
      pool.address ≠ user.address ∨
        (∃ args, parseSwap data = .ok args ∧
          swapOut args.amount args.rateNum args.rateDen = .ok args.amount) ∨
        ¬∃ args out, Passes programId pool user data ledger args out := by
  by_cases same : pool.address = user.address
  · rw [← accepted_iff_passes rest]
    constructor
    · intro conserves
      refine or_iff_not_imp_left.mpr fun _ => or_iff_not_imp_right.mpr fun accepted => ?_
      obtain ⟨after, accepted⟩ := not_not.mp accepted
      obtain ⟨args, out, _, _, parsed, swapped⟩ := processInstruction_eq_ok.mp accepted
      have kept := conserves after accepted
      have moved := lamportsOver_aliased rest same swapped
      have outExact : out = args.amount := UInt64.toNat_inj.mp (by omega)
      exact ⟨args, parsed, outExact ▸ swapped.payout⟩
    · intro either after accepted
      obtain ⟨args, out, _, _, parsed, swapped⟩ := processInstruction_eq_ok.mp accepted
      have moved := lamportsOver_aliased rest same swapped
      rcases either with distinct | ⟨args', parsed', even⟩ | refused
      · exact absurd same distinct
      · obtain rfl : args = args' := Except.ok.inj (parsed.symm.trans parsed')
        obtain rfl : out = args.amount := Except.ok.inj (swapped.payout.symm.trans even)
        omega
      · exact absurd ⟨after, accepted⟩ refused
  · exact iff_of_true (conserves_of_distinct same) (.inl same)

/-- One account of 100 lamports listed as pool and as user: a swap of 10 at
rate 2/1 is accepted and leaves 110. -/
theorem swap_aliased_creates_lamports :
    let program : Address := fun _ => 0xAA
    let account : AccountView := ⟨fun _ => 1, false, true⟩
    let ledger : Ledger := fun _ => ⟨100, program, []⟩
    (∃ after, (processInstruction program [account, account] (encodeSwapWith 0 2 1 10)).run
        (Machine.start ledger) = (.ok (), after) ∧
      lamportsOver [account, account] ledger = 100 ∧
      lamportsOver [account, account] after.ledger = 110) ∧
      ¬Conserves program [account, account] (encodeSwapWith 0 2 1 10) ledger := by
  refine ⟨⟨_, rfl, by decide, by decide⟩, ?_⟩
  intro conserves
  exact absurd (conserves _ rfl) (by decide)

/-- A pool of 1000 and a user of 100 lamports, a swap of 10 at rate 2/1; and one
account of 100 lamports as both, which a swap of 101 leaves as it is. -/
theorem swap_conserves_distinct :
    let program : Address := fun _ => 0xAA
    let pool : AccountView := ⟨fun _ => 1, false, true⟩
    let user : AccountView := ⟨fun _ => 2, false, true⟩
    let ledger : Ledger := fun a => ⟨if a = pool.address then 1000 else 100, program, []⟩
    (∃ after, (processInstruction program [pool, user] (encodeSwapWith 0 2 1 10)).run
        (Machine.start ledger) = (.ok (), after) ∧
      lamportsOver [pool, user] after.ledger = lamportsOver [pool, user] ledger) ∧
      Conserves program [user, user] (encodeSwapWith 0 2 1 101) ledger := by
  refine ⟨⟨_, rfl, ?_⟩, ?_⟩
  · exact (swap_conserves_iff (fun _ => 0xAA) _ _ [] (encodeSwapWith 0 2 1 10) _).mpr
      (.inl (by decide)) _ rfl
  · refine (swap_conserves_iff _ _ _ [] _ _).mpr (.inr (.inr ?_))
    rintro ⟨args, out, passes⟩
    obtain rfl : (⟨2, 1, 101⟩ : SwapArgs) = args := Except.ok.inj
      ((parseSwap_encode 2 1 101).symm.trans passes.parsed)
    have covers := passes.userCovers
    revert covers
    decide

end HopperBench.MockAmm
