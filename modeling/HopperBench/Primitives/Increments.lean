import HopperBench.LazyDispatch.DispatchAgreement
import HopperBench.Primitives.BenchProgram
import HopperBench.Vault.PinocchioVault
import Mathlib.Order.Monotone.Basic

/-!
# Every way a stored word is raised

Four instructions of three programs raise a 64-bit word in an account's data.
Each of them adds exactly its amount or leaves the word alone, except that disc
15 of the primitives program adds without a check and turns the largest word
into zero.  A run of such instructions therefore never lowers a word exactly
when no disc 15 of it meets the largest word.
-/

set_option autoImplicit false

namespace HopperBench.Increments

open StoppingRun WordField HopperBench.Solana HopperBench.BenchProgram

/-- The words that are raised, each in the layout of its own account kind. -/
inductive Field where
  | benchBalance
  | procBalance
  | lazyCounter
  | vaultCounter
deriving DecidableEq

def Field.offset : Field → Nat
  | .benchBalance => benchBalanceOffset
  | .procBalance => procBalanceOffset
  | .lazyCounter => 0
  | .vaultCounter => 32

inductive Increment where
  | overlayMutFieldSet (accounts : List AccountView)
  | typedDeposit (vault : AccountView) (amount : UInt64)
  | lazyCounter (user vault : AccountView)
  | counterAccess (accounts : List AccountView)

/-- The programs' ids and what they take from outside the workspace. -/
structure Deployment where
  hopper : Framework
  segmentMut : LazyDispatchVault.SegmentMut
  find : PinocchioVault.FindProgramAddress
  benchId : Address
  pinocchioId : Address

structure Deployment.Lawful (deployment : Deployment) : Prop where
  hopper : deployment.hopper.Lawful
  segmentMut : deployment.segmentMut.Lawful

namespace Increment

def program (deployment : Deployment) : Increment → Program Unit
  | overlayMutFieldSet accounts =>
      benchOverlayMutFieldSet deployment.hopper accounts deployment.benchId
  | typedDeposit vault amount => BenchProgram.typedDeposit deployment.hopper vault amount
  | lazyCounter user vault => LazyDispatchVault.handleCounter deployment.segmentMut user vault
  | counterAccess accounts =>
      PinocchioVault.processCounterAccess deployment.find deployment.pinocchioId accounts

def field : Increment → Field
  | overlayMutFieldSet _ => .benchBalance
  | typedDeposit _ _ => .procBalance
  | lazyCounter _ _ => .lazyCounter
  | counterAccess _ => .vaultCounter

def vault : Increment → Option AccountView
  | overlayMutFieldSet accounts => accounts.head?
  | typedDeposit vault _ => some vault
  | lazyCounter _ vault => some vault
  | counterAccess accounts => accounts[1]?

def amount : Increment → UInt64
  | typedDeposit _ amount => amount
  | _ => 1

end Increment

def stored (field : Field) (a : Address) (ledger : Ledger) : Nat :=
  (wordAt field.offset (ledger a).data).toNat

def Accepts (deployment : Deployment) (op : Increment) (ledger : Ledger) : Prop :=
  ((op.program deployment).run (Machine.start ledger)).1 = .ok ()

/-- The ledger as the instruction leaves it, also when it fails. -/
def after (deployment : Deployment) (ledger : Ledger) (op : Increment) : Ledger :=
  ((op.program deployment).run (Machine.start ledger)).2.ledger

def runAll (deployment : Deployment) (ledger : Ledger) (ops : List Increment) : Ledger :=
  ops.foldl (after deployment) ledger

/-- An accepted instruction adds exactly its amount to the word, and a refused
one leaves the word as it was. -/
def Exact (deployment : Deployment) (op : Increment) (ledger : Ledger) : Prop :=
  ∀ vault, op.vault = some vault →
    (Accepts deployment op ledger →
      stored op.field vault.address (after deployment ledger op) =
        stored op.field vault.address ledger + op.amount.toNat) ∧
    (¬Accepts deployment op ledger →
      stored op.field vault.address (after deployment ledger op) =
        stored op.field vault.address ledger)

/-- A disc 15 that the framework lets through to the largest balance. -/
def MeetsLargest (deployment : Deployment) (op : Increment) (ledger : Ledger) : Prop :=
  ∃ accounts vault, op = .overlayMutFieldSet accounts ∧ accounts.head? = some vault ∧
    OverlayGranted deployment.hopper deployment.benchId vault (ledger vault.address) ∧
    stored .benchBalance vault.address ledger = 2 ^ 64 - 1

/-! ## One instruction -/

theorem Field.apart {field other : Field} (distinct : other ≠ field) :
    other.offset + 8 ≤ field.offset ∨ field.offset + 8 ≤ other.offset := by
  cases field <;> cases other <;>
    first | exact absurd rfl distinct | decide

section Raised

variable {field other : Field} {n : UInt64} {vault : AccountView} {m : Machine} {a : Address}

theorem stored_raised (inside : field.offset + 8 ≤ (m.ledger vault.address).data.length) :
    stored field vault.address (raised field.offset n vault m).ledger =
      (stored field vault.address m.ledger + n.toNat) % 2 ^ 64 := by
  rw [stored, raised, data_setData, wordAt_setWordAt inside, UInt64.toNat_add, stored]

theorem stored_raised_other (inside : field.offset + 8 ≤ (m.ledger vault.address).data.length)
    (elsewhere : a ≠ vault.address ∨ other ≠ field) :
    stored other a (raised field.offset n vault m).ledger = stored other a m.ledger := by
  by_cases same : a = vault.address
  · subst same
    rw [stored, raised, data_setData]
    rcases Field.apart (elsewhere.resolve_left (not_not_intro rfl)) with before | behind
    · rw [wordAt_setWordAt_before inside before, stored]
    · rw [wordAt_setWordAt_after inside behind, stored]
  · have untouched : (raised field.offset n vault m).ledger a = m.ledger a :=
      setData_other _ same _
    rw [stored, untouched, stored]

end Raised

section Step

variable {deployment : Deployment} {ledger : Ledger}

structure Raises (deployment : Deployment) (op : Increment) (ledger : Ledger)
    (vault : AccountView) : Prop where
  listed : op.vault = some vault
  inside : op.field.offset + 8 ≤ (ledger vault.address).data.length
  room : stored op.field vault.address ledger + op.amount.toNat < 2 ^ 64 ∨
    MeetsLargest deployment op ledger

/-- Every instruction fails without a trace or raises its own word. -/
def Steps (deployment : Deployment) (op : Increment) (m : Machine) : Prop :=
  (op.program deployment).Meets m
    (fun _ after => ∃ vault, Raises deployment op m.ledger vault ∧
      after = raised op.field.offset op.amount vault m)
    fun _ after => after = m

theorem steps_of_eq_ok {op : Increment} {m : Machine}
    (writesLast : WritesDataLast (op.program deployment))
    (writes : ∀ after, (op.program deployment).run m = (.ok (), after) →
      ∃ vault, Raises deployment op m.ledger vault ∧
        after = raised op.field.offset op.amount vault m) : Steps deployment op m :=
  Exec.meets_iff.mpr ⟨fun _ after ok => writes after ok, fun e after stopped =>
    writesLast.atomic m e after stopped⟩

theorem benchBalance_inside (lawful : deployment.Lawful) {vault : AccountView} {viewed : Account}
    (granted : OverlayGranted deployment.hopper deployment.benchId vault viewed) :
    Field.benchBalance.offset + 8 ≤ viewed.data.length :=
  calc Field.benchBalance.offset + 8 ≤ benchVaultLen := by decide
    _ ≤ viewed.data.length := lawful.hopper.overlaySized _ granted.overlaid

theorem overlay_steps (lawful : deployment.Lawful) (accounts : List AccountView) (m : Machine) :
    Steps deployment (.overlayMutFieldSet accounts) m := by
  refine steps_of_eq_ok ?_ ?_
  · exact benchOverlayMutFieldSet_writesDataLast accounts
  intro after ok
  obtain ⟨vault, listed, granted, written⟩ := benchOverlayMutFieldSet_eq_ok.mp ok
  refine ⟨vault, ⟨listed, benchBalance_inside lawful granted, ?_⟩, written⟩
  · have bound : stored .benchBalance vault.address m.ledger < 2 ^ 64 := UInt64.toNat_lt _
    rcases Nat.lt_or_ge (stored .benchBalance vault.address m.ledger + 1) (2 ^ 64) with room | full
    · exact .inl room
    · exact .inr ⟨accounts, vault, rfl, listed, granted, by omega⟩

theorem typedDeposit_steps (lawful : deployment.Lawful) (vault : AccountView) (amount : UInt64)
    (m : Machine) : Steps deployment (.typedDeposit vault amount) m := by
  refine steps_of_eq_ok ?_ ?_
  · exact typedDeposit_writesDataLast vault amount
  intro after ok
  obtain ⟨⟨granted, room⟩, written⟩ := typedDeposit_eq_ok.mp ok
  have fits : Field.procBalance.offset + 8 ≤ procVaultLen := by decide
  exact ⟨vault, ⟨rfl, fits.trans (lawful.hopper.balanceSized _ _ granted), .inl room⟩, written⟩

theorem lazyCounter_steps (lawful : deployment.Lawful) (user vault : AccountView) (m : Machine) :
    Steps deployment (.lazyCounter user vault) m := by
  refine (DispatchAgreement.handleCounter_meets lawful.segmentMut user vault).mono ?_
    fun _ _ same => same
  intro _ after counted
  exact ⟨vault, ⟨rfl, counted.viewed, .inl counted.room⟩, counted.written⟩

theorem counterAccess_steps (accounts : List AccountView) (m : Machine) :
    Steps deployment (.counterAccess accounts) m := by
  refine steps_of_eq_ok ?_ ?_
  · exact PinocchioVault.processCounterAccess_writesDataLast
  intro after ok
  have ran : (PinocchioVault.processCounterAccess deployment.find deployment.pinocchioId
    accounts).run m = (.ok (), after) := ok
  cases accounts with
  | nil => cases ran
  | cons user others =>
      cases others with
      | nil => cases ran
      | cons vault rest =>
          obtain ⟨⟨_, ready⟩, written⟩ := PinocchioVault.processCounterAccess_eq_ok.mp ran
          exact ⟨vault, ⟨rfl, ready.longEnough, .inl ready.counterRoom⟩, written⟩

theorem steps (lawful : deployment.Lawful) (op : Increment) (m : Machine) :
    Steps deployment op m := by
  cases op with
  | overlayMutFieldSet accounts => exact overlay_steps lawful accounts m
  | typedDeposit vault amount => exact typedDeposit_steps lawful vault amount m
  | lazyCounter user vault => exact lazyCounter_steps lawful user vault m
  | counterAccess accounts => exact counterAccess_steps accounts m

theorem after_cases (lawful : deployment.Lawful) (op : Increment) (ledger : Ledger) :
    (¬Accepts deployment op ledger ∧ after deployment ledger op = ledger) ∨
      (Accepts deployment op ledger ∧ ∃ vault, Raises deployment op ledger vault ∧
        after deployment ledger op =
          (raised op.field.offset op.amount vault (Machine.start ledger)).ledger) := by
  have spec := Exec.meets_iff.mp (steps lawful op (Machine.start ledger))
  rcases ended : (op.program deployment).run (Machine.start ledger) with ⟨e | u, m⟩
  · left
    refine ⟨?_, ?_⟩
    · rw [Accepts, ended]
      intro impossible
      cases impossible
    · rw [after, ended, spec.2 e m ended]
      rfl
  · right
    obtain ⟨vault, raises, written⟩ := spec.1 u m ended
    refine ⟨?_, vault, raises, ?_⟩
    · rw [Accepts, ended]
    · rw [after, ended, written]

theorem exact_of_calm (lawful : deployment.Lawful) {op : Increment}
    (calm : ¬MeetsLargest deployment op ledger) : Exact deployment op ledger := by
  intro vault listed
  rcases after_cases lawful op ledger with ⟨refused, same⟩ | ⟨accepted, vault', raises, written⟩
  · exact ⟨fun accepted => absurd accepted refused, fun _ => congrArg _ same⟩
  · obtain rfl : vault' = vault := Option.some.inj (raises.listed.symm.trans listed)
    refine ⟨?_, fun refused => absurd accepted refused⟩
    intro _
    rw [written, stored_raised raises.inside]
    exact Nat.mod_eq_of_lt (raises.room.resolve_right calm)

theorem wraps_of_meetsLargest (lawful : deployment.Lawful) {op : Increment}
    (largest : MeetsLargest deployment op ledger) :
    ∃ vault, op.vault = some vault ∧ Accepts deployment op ledger ∧
      stored op.field vault.address ledger = 2 ^ 64 - 1 ∧
      stored op.field vault.address (after deployment ledger op) = 0 := by
  obtain ⟨accounts, vault, rfl, listed, granted, full⟩ := largest
  have ended : ((Increment.overlayMutFieldSet accounts).program deployment).run
      (Machine.start ledger) = (.ok (), raised benchBalanceOffset 1 vault (Machine.start ledger)) :=
    benchOverlayMutFieldSet_eq_ok.mpr ⟨vault, listed, granted, rfl⟩
  have sum : stored .benchBalance vault.address
      (raised benchBalanceOffset 1 vault (Machine.start ledger)).ledger =
        (2 ^ 64 - 1 + 1) % 2 ^ 64 :=
    full ▸ stored_raised (benchBalance_inside lawful granted)
  refine ⟨vault, listed, ?_, full, ?_⟩
  · rw [Accepts, ended]
  · rw [after, ended]
    exact sum

theorem exact_iff (lawful : deployment.Lawful) {op : Increment} :
    Exact deployment op ledger ↔ ¬MeetsLargest deployment op ledger := by
  refine ⟨?_, exact_of_calm lawful⟩
  intro isExact largest
  obtain ⟨vault, listed, accepted, full, zero⟩ := wraps_of_meetsLargest lawful largest
  have counted := (isExact vault listed).1 accepted
  omega

theorem stored_le_after (lawful : deployment.Lawful) {op : Increment}
    (calm : ¬MeetsLargest deployment op ledger) (field : Field) (a : Address) :
    stored field a ledger ≤ stored field a (after deployment ledger op) := by
  rcases after_cases lawful op ledger with ⟨_, same⟩ | ⟨accepted, vault, raises, written⟩
  · rw [same]
  · by_cases own : a = vault.address ∧ field = op.field
    · obtain ⟨rfl, rfl⟩ := own
      rw [(exact_of_calm lawful calm vault raises.listed).1 accepted]
      exact Nat.le_add_right _ _
    · rw [written, stored_raised_other raises.inside (not_and_or.mp own)]
      exact Nat.le_refl _

end Step

/-! ## Runs -/

theorem runAll_take_succ (deployment : Deployment) (ledger : Ledger) (ops : List Increment)
    {i : Nat} (inRun : i < ops.length) :
    runAll deployment ledger (ops.take (i + 1)) =
      after deployment (runAll deployment ledger (ops.take i)) ops[i] := by
  rw [runAll, List.take_succ_eq_append_getElem inRun, List.foldl_append]
  rfl

/-- Each increment is exact unless it is a disc 15 let through to the largest
balance, and the words of a run never fall exactly when none of its steps is. -/
theorem stored_monotone_iff (deployment : Deployment) (lawful : deployment.Lawful) :
    (∀ op ledger, Exact deployment op ledger ↔ ¬MeetsLargest deployment op ledger) ∧
      ∀ (ledger : Ledger) (ops : List Increment),
        (∀ field a, Monotone fun i => stored field a (runAll deployment ledger (ops.take i))) ↔
          ∀ i (inRun : i < ops.length),
            ¬MeetsLargest deployment ops[i] (runAll deployment ledger (ops.take i)) := by
  refine ⟨fun op ledger => exact_iff lawful, ?_⟩
  intro ledger ops
  constructor
  · intro monotone i inRun largest
    obtain ⟨vault, _, _, full, zero⟩ := wraps_of_meetsLargest lawful largest
    have grown := monotone ops[i].field vault.address (Nat.le_succ i)
    simp only [runAll_take_succ deployment ledger ops inRun, full, zero] at grown
    omega
  · intro calm field a
    apply monotone_nat_of_le_succ
    intro i
    by_cases inRun : i < ops.length
    · rw [runAll_take_succ deployment ledger ops inRun]
      exact stored_le_after lawful (calm i inRun) field a
    · have ended := Nat.not_lt.mp inRun
      rw [List.take_of_length_le ended, List.take_of_length_le (Nat.le_succ_of_le ended)]

def sampleDeployment : Deployment where
  hopper := sizedFramework
  segmentMut := LazyDispatchVault.writableSegment
  find := PinocchioVault.sampleDerivation
  benchId := fun _ => 0x7B
  pinocchioId := fun _ => 3

theorem sampleDeployment_lawful : sampleDeployment.Lawful where
  hopper := sizedFramework_lawful
  segmentMut := LazyDispatchVault.writableSegment_lawful

def benchVault : AccountView := ⟨fun _ => 0x11, true, true⟩

/-- Every account is a `BenchVault` of the primitives program. -/
def benchLedger (balance : UInt64) : Ledger := fun _ =>
  ⟨1, sampleDeployment.benchId,
    List.replicate 48 0 ++ List.ofFn (LittleEndian.u64Bytes balance) ++ [0]⟩

theorem overlay_wraps_largest :
    let op := Increment.overlayMutFieldSet [benchVault]
    let ledger := benchLedger 18446744073709551615
    Accepts sampleDeployment op ledger ∧
      stored .benchBalance benchVault.address ledger = 2 ^ 64 - 1 ∧
      stored .benchBalance benchVault.address (after sampleDeployment ledger op) = 0 ∧
      ¬Exact sampleDeployment op ledger := by
  intro op ledger
  have accepted : Accepts sampleDeployment op ledger := by
    unfold Accepts
    decide +kernel
  have full : stored .benchBalance benchVault.address ledger = 2 ^ 64 - 1 := by decide +kernel
  have zero : stored .benchBalance benchVault.address (after sampleDeployment ledger op) = 0 := by
    decide +kernel
  refine ⟨accepted, full, zero, ?_⟩
  intro isExact
  have counted : stored .benchBalance benchVault.address (after sampleDeployment ledger op) =
      stored .benchBalance benchVault.address ledger + 1 := (isExact benchVault rfl).1 accepted
  omega

theorem stored_monotone_of_carry :
    let op := Increment.overlayMutFieldSet [benchVault]
    let ledger := benchLedger 255
    Exact sampleDeployment op ledger ∧
      stored .benchBalance benchVault.address (after sampleDeployment ledger op) = 256 ∧
      ∀ field a, Monotone fun i =>
        stored field a (runAll sampleDeployment ledger ([op, op].take i)) := by
  intro op ledger
  obtain ⟨exactIff, monotoneIff⟩ := stored_monotone_iff sampleDeployment sampleDeployment_lawful
  have calm : ∀ reached : Ledger, stored .benchBalance benchVault.address reached ≠ 2 ^ 64 - 1 →
      ¬MeetsLargest sampleDeployment op reached := by
    intro reached small largest
    obtain ⟨accounts, vault, same, listed, _, full⟩ := largest
    obtain rfl : [benchVault] = accounts := Increment.overlayMutFieldSet.inj same
    obtain rfl : benchVault = vault := Option.some.inj listed
    exact small full
  have first : stored .benchBalance benchVault.address ledger ≠ 2 ^ 64 - 1 := by decide +kernel
  have carried : stored .benchBalance benchVault.address (after sampleDeployment ledger op) =
      256 := by decide +kernel
  refine ⟨(exactIff op ledger).mpr (calm ledger first), carried,
    (monotoneIff ledger [op, op]).mpr ?_⟩
  intro i inRun
  match i, inRun with
  | 0, _ => exact calm ledger first
  | 1, _ =>
      have reached : runAll sampleDeployment ledger ([op, op].take 1) =
          after sampleDeployment ledger op := rfl
      rw [reached]
      apply calm
      rw [carried]
      decide

end HopperBench.Increments
