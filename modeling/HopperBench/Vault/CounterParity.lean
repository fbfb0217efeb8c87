import HopperBench.Vault.WithdrawFailure

/-!
# The two counter accesses against each other

The Pinocchio program keeps the authority and the counter at the start of the
vault's data, the Anchor program behind an eight-byte discriminator.  On the same
body they accept the same users and write the same bytes, so the runner reads
the same new value at either program's offset.
-/

set_option autoImplicit false

namespace HopperBench.CounterParity

open StoppingRun LittleEndian WordField HopperBench.Solana HopperBench.PinocchioVault
  HopperBench.WithdrawParity

/-! ## What the runner reads -/

def anchorCounterDataLen : Nat := 48

def counterDataLenOf (spec : ProgramSpec) : Nat :=
  if isAnchor spec then anchorCounterDataLen else counterDataLen

def counterAuthorityOffset (spec : ProgramSpec) : Nat := if isAnchor spec then 8 else 0

def counterOffset (spec : ProgramSpec) : Nat := counterAuthorityOffset spec + 32

/-- `counter_for`, with the printing of an address as a parameter. -/
def counterFor (showAddress : Address → String) (spec : ProgramSpec)
    (accounts : List (Address × Account)) (key : Address) : Except String UInt64 :=
  match accounts.find? fun entry => entry.1 = key with
  | none => .error ("missing resulting account " ++ showAddress key)
  | some entry =>
      if entry.2.data.length < counterDataLenOf spec then
        .error ("resulting account " ++ showAddress key ++
          " data too small for counter access scenario")
      else
        .ok (wordAt (counterOffset spec) entry.2.data)

theorem counterFor_listed {showAddress : Address → String} {spec : ProgramSpec} {a : Address}
    {account : Account} (long : counterDataLenOf spec ≤ account.data.length) :
    counterFor showAddress spec [(a, account)] a =
      .ok (wordAt (counterOffset spec) account.data) := by
  have found : [(a, account)].find? (fun entry => entry.1 = a) = some (a, account) := by
    simp
  rw [counterFor, found]
  exact if_neg (Nat.not_lt.mpr long)

/-! ## One vault of each program -/

/-- A vault as both programs want it, holding `data`. -/
structure CounterVault (find : FindProgramAddress) (programId : Address)
    (user vault : AccountView) (ledger : Ledger) (data : List UInt8) : Prop where
  writable : vault.isWritable = true
  owned : (ledger vault.address).owner = programId
  derived : vaultAddress find programId user.address = vault.address
  holds : (ledger vault.address).data = data

structure Incremented (body body' : List UInt8) : Prop where
  length_eq : body'.length = body.length
  authority_eq : body'.take 32 = body.take 32
  rest_eq : body'.drop 40 = body.drop 40
  counter_succ : (wordAt 32 body').toNat = (wordAt 32 body).toNat + 1

structure Countable (user : AccountView) (body : List UInt8) : Prop where
  signed : user.isSigner = true
  userWritable : user.isWritable = true
  authorityStored : body.take 32 = List.ofFn user.address
  room : (wordAt 32 body).toNat + 1 < 2 ^ 64

theorem incremented_setWordAt {body : List UInt8} (longEnough : 40 ≤ body.length)
    (room : (wordAt 32 body).toNat + 1 < 2 ^ 64) :
    Incremented body (setWordAt 32 (wordAt 32 body + 1) body) where
  length_eq := length_setWordAt longEnough
  authority_eq := take_setWordAt longEnough
  rest_eq := drop_setWordAt longEnough
  counter_succ := by
    rw [wordAt_setWordAt longEnough, UInt64.toNat_add]
    exact Nat.mod_eq_of_lt room

section Runs

variable {find : FindProgramAddress} {programId : Address} {user vault : AccountView}
  {ledger : Ledger} {body : List UInt8}

def counted (vault : AccountView) (ledger : Ledger) (body' : List UInt8) : Machine :=
  ⟨ledger.setData vault.address body', [], [vault]⟩

theorem pinocchio_eq_ok (ready : CounterVault find programId user vault ledger body)
    (longEnough : 40 ≤ body.length) {final : Machine} :
    (processCounterAccess find programId [user, vault]).run (Machine.start ledger) =
        (.ok (), final) ↔
      Countable user body ∧
        final = counted vault ledger (setWordAt 32 (wordAt 32 body + 1) body) := by
  obtain ⟨_, _, derived, holds⟩ := ready
  rw [processCounterAccess_eq_ok]
  simp only [Machine.start, holds]
  constructor
  · intro accepted
    obtain ⟨⟨⟨signed, userWritable, _⟩, _, authority, room⟩, written⟩ := accepted
    exact ⟨⟨signed, userWritable, authority, room⟩, written⟩
  · intro conditions
    obtain ⟨⟨signed, userWritable, authority, room⟩, written⟩ := conditions
    exact ⟨⟨⟨signed, userWritable, derived⟩, longEnough, authority, room⟩, written⟩

theorem anchor_eq_ok {generated : AnchorVault.CounterGenerated} (lawful : generated.Lawful find)
    (ready : CounterVault find programId user vault ledger
      (AnchorVault.counterStateDiscriminator ++ body))
    (longEnough : 40 ≤ body.length) {final : Machine} :
    (AnchorVault.processCounterAccess generated programId [user, vault]).run
        (Machine.start ledger) = (.ok (), final) ↔
      Countable user body ∧ final = counted vault ledger
        (AnchorVault.counterStateDiscriminator ++ setWordAt 32 (wordAt 32 body + 1) body) := by
  obtain ⟨writable, owned, derived, holds⟩ := ready
  have header : (AnchorVault.counterStateDiscriminator ++ body).take 8 =
      AnchorVault.counterStateDiscriminator := List.take_left' rfl
  have behind : (AnchorVault.counterStateDiscriminator ++ body).drop 8 = body :=
    List.drop_left' rfl
  have long : 48 ≤ (AnchorVault.counterStateDiscriminator ++ body).length := by
    rw [List.length_append]
    exact Nat.add_le_add_left longEnough 8
  -- the eight bytes in front shift both fields to 40
  have reads : wordAt (8 + 32) (AnchorVault.counterStateDiscriminator ++ body) =
      wordAt 32 body := wordAt_append rfl
  have writes : ∀ word, setWordAt (8 + 32) word (AnchorVault.counterStateDiscriminator ++ body) =
      AnchorVault.counterStateDiscriminator ++ setWordAt 32 word body :=
    fun _ => setWordAt_append rfl
  rw [AnchorVault.processCounterAccess_eq_ok lawful, AnchorVault.counterAccess_eq_ok]
  simp only [Nat.reduceAdd] at reads writes
  simp only [Machine.start, lawful.views, holds, header, behind, reads, writes]
  constructor
  · intro accepted
    obtain ⟨⟨⟨signed, userWritable, _⟩, _⟩, _, authority, room, written⟩ := accepted
    exact ⟨⟨signed, userWritable, authority, room⟩, written⟩
  · intro conditions
    obtain ⟨⟨signed, userWritable, authority, room⟩, written⟩ := conditions
    exact ⟨⟨⟨signed, userWritable, derived⟩, writable, owned, trivial⟩, ⟨writable, trivial, long⟩,
      authority, room, written⟩

end Runs

/-- On the same body behind their own headers the two programs accept the same
users, raise the same counter, and leave everything else of the body alone; a
refusal changes neither body. -/
theorem counter_parity (find : FindProgramAddress) (generated : AnchorVault.CounterGenerated)
    (lawful : generated.Lawful find) (showAddress : Address → String)
    (pinocchioId anchorId : Address) (user vault anchorVault : AccountView) (body : List UInt8)
    (longEnough : 40 ≤ body.length) (ledger anchorLedger : Ledger)
    (ready : CounterVault find pinocchioId user vault ledger body)
    (anchorReady : CounterVault find anchorId user anchorVault anchorLedger
      (AnchorVault.counterStateDiscriminator ++ body)) :
    let pinocchio := (processCounterAccess find pinocchioId [user, vault]).run
      (Machine.start ledger)
    let anchor := (AnchorVault.processCounterAccess generated anchorId [user, anchorVault]).run
      (Machine.start anchorLedger)
    let left := pinocchio.2.ledger vault.address
    let right := anchor.2.ledger anchorVault.address
    (pinocchio.1 = .ok () ↔ anchor.1 = .ok ()) ∧
      (pinocchio.1 = .ok () → ∃ body', Incremented body body' ∧ left.data = body' ∧
        right.data = AnchorVault.counterStateDiscriminator ++ body' ∧
        counterFor showAddress ⟨"pinocchio", pinocchioId⟩ [(vault.address, left)] vault.address =
          .ok (wordAt 32 body') ∧
        counterFor showAddress ⟨"anchor", anchorId⟩ [(anchorVault.address, right)]
          anchorVault.address = .ok (wordAt 32 body')) ∧
      (pinocchio.1 ≠ .ok () → left.data = body ∧
        right.data = AnchorVault.counterStateDiscriminator ++ body) := by
  intro pinocchio anchor left right
  have pinocchioAccepts : pinocchio.1 = .ok () ↔ Countable user body :=
    Exec.fst_eq_ok_iff (pinocchio_eq_ok ready longEnough)
  have anchorAccepts : anchor.1 = .ok () ↔ Countable user body :=
    Exec.fst_eq_ok_iff (anchor_eq_ok lawful anchorReady longEnough)
  refine ⟨pinocchioAccepts.trans anchorAccepts.symm, ?_, ?_⟩
  · intro accepted
    have countable := pinocchioAccepts.mp accepted
    have incremented := incremented_setWordAt longEnough countable.room
    have leftData : left.data = setWordAt 32 (wordAt 32 body + 1) body := by
      simp only [left, pinocchio]
      rw [(pinocchio_eq_ok ready longEnough).mpr ⟨countable, rfl⟩]
      exact data_setData _ _ _
    have rightData : right.data = AnchorVault.counterStateDiscriminator ++
        setWordAt 32 (wordAt 32 body + 1) body := by
      simp only [right, anchor]
      rw [(anchor_eq_ok lawful anchorReady longEnough).mpr ⟨countable, rfl⟩]
      exact data_setData _ _ _
    have long : 40 ≤ (setWordAt 32 (wordAt 32 body + 1) body).length := by
      rw [incremented.length_eq]
      exact longEnough
    refine ⟨_, incremented, leftData, rightData, ?_, ?_⟩
    · have read : counterFor showAddress ⟨"pinocchio", pinocchioId⟩ [(vault.address, left)]
          vault.address = .ok (wordAt 32 left.data) := counterFor_listed (by
        rw [leftData]
        exact long)
      rw [read, leftData]
    · have read : counterFor showAddress ⟨"anchor", anchorId⟩ [(anchorVault.address, right)]
          anchorVault.address = .ok (wordAt (8 + 32) right.data) := counterFor_listed (by
        rw [rightData, List.length_append]
        exact Nat.add_le_add_left long 8)
      rw [read, rightData]
      exact congrArg Except.ok (wordAt_append rfl)
  · intro refused
    have leftKept : pinocchio.2 = Machine.start ledger :=
      processCounterAccess_writesDataLast.atomic.snd_eq fun _ => refused
    have anchorRefused : anchor.1 ≠ .ok () := by
      rw [ne_eq, anchorAccepts, ← pinocchioAccepts]
      exact refused
    have rightKept : anchor.2 = Machine.start anchorLedger :=
      (AnchorVault.processCounterAccess_writesDataLast generated anchorId _).atomic.snd_eq
        fun _ => anchorRefused
    simp only [left, right, leftKept, rightKept]
    exact ⟨ready.holds, anchorReady.holds⟩

/-- The sample user's authority, the counter 255, and one more byte. -/
def carryBody : List UInt8 :=
  List.ofFn Accounting.sampleUser.address ++ List.ofFn (u64Bytes 255) ++ [9]

def carryLedger (vaultOwner : Address) (data : List UInt8) : Ledger :=
  fun _ => ⟨1, vaultOwner, data⟩

theorem carry_ready (programId : Address) (data : List UInt8) :
    CounterVault sampleDerivation programId Accounting.sampleUser Accounting.sampleVault
      (carryLedger programId data) data := by
  have derived : vaultAddress sampleDerivation (fun _ => 0) Accounting.sampleUser.address =
      Accounting.sampleVault.address := by decide
  exact ⟨rfl, rfl, derived, rfl⟩

theorem counter_parity_carry :
    let pinocchio := (processCounterAccess sampleDerivation Accounting.sampleProgram
      [Accounting.sampleUser, Accounting.sampleVault]).run
        (Machine.start (carryLedger Accounting.sampleProgram carryBody))
    let anchor := (AnchorVault.processCounterAccess (AnchorVault.checkedCounter sampleDerivation)
      (fun _ => 4) [Accounting.sampleUser, Accounting.sampleVault]).run
        (Machine.start (carryLedger (fun _ => 4)
          (AnchorVault.counterStateDiscriminator ++ carryBody)))
    anchor.1 = .ok () ∧ ∃ body', Incremented carryBody body' ∧
      (pinocchio.2.ledger Accounting.sampleVault.address).data = body' ∧
      (anchor.2.ledger Accounting.sampleVault.address).data =
        AnchorVault.counterStateDiscriminator ++ body' ∧
      (wordAt 32 body').toNat = 256 := by
  intro pinocchio anchor
  have accepted : pinocchio.1 = .ok () := by decide +kernel
  have stored : (wordAt 32 carryBody).toNat = 255 := by decide +kernel
  obtain ⟨alike, counts, _⟩ := counter_parity sampleDerivation
    (AnchorVault.checkedCounter sampleDerivation)
    (AnchorVault.checkedCounter_lawful sampleDerivation) (fun _ => "vault")
    Accounting.sampleProgram (fun _ => 4) Accounting.sampleUser Accounting.sampleVault
    Accounting.sampleVault carryBody (by decide) (carryLedger Accounting.sampleProgram carryBody)
    (carryLedger (fun _ => 4) (AnchorVault.counterStateDiscriminator ++ carryBody))
    (carry_ready _ _) (carry_ready _ _)
  obtain ⟨body', incremented, left, right, _⟩ := counts accepted
  have succ := incremented.counter_succ
  rw [stored] at succ
  exact ⟨alike.mp accepted, body', incremented, left, right, succ⟩

end HopperBench.CounterParity
