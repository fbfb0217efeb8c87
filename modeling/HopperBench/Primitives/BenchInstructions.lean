import HopperBench.Library.Metered
import HopperBench.Primitives.BenchProgram
import HopperBench.Primitives.BracketedDelta

/-!
# The instructions of the primitives program on a meter

All discs of the primitives program, with the compute units they pay and the
lines they log.  Each calls one framework primitive between two prints of the
meter; the framework is a parameter that says of every call what it answers,
what it costs and what it logs.
-/

set_option autoImplicit false

namespace HopperBench.BenchInstructions

open StoppingRun CheckedWord WordField Metered HopperBench.Solana HopperBench.BenchProgram
  HopperBench.BracketedDelta

/-- A line that does not show the meter. -/
abbrev Noise := { line : String // ∀ v, ¬IsConsumption line v }

/-- What a call into the framework answers, what it costs and what it logs. -/
structure Call (R : Type) where
  answer : R
  units : Nat
  lines : List Noise

abbrev Checked (A : Type) := Call (Except ProgramError A)

inductive Phase where
  | init
  | update

inductive CompatImpact where
  | none

structure Hopper where
  checkSigner : AccountView → Checked Unit
  checkWritable : AccountView → Checked Unit
  checkOwner : AccountView → Account → Address → Checked Unit
  checkKeysEq : AccountView → AccountView → Checked Unit
  checkSignerFast : AccountView → Checked Unit
  /-- `BenchVault::LAYOUT_ID` -/
  layoutId : List UInt8
  /-- `BenchVault::load` -/
  load : AccountView → Account → Address → Checked Unit
  /-- `BenchVault::overlay` -/
  overlay : List UInt8 → Checked Unit
  /-- `BenchVault::overlay_mut` -/
  overlayMut : List UInt8 → Checked Unit
  /-- `BenchVault::write_init_header`, with the bytes it leaves. -/
  writeInitHeader : List UInt8 → Checked (List UInt8)
  /-- `init_header::<ProcBenchVault>`, with the bytes it leaves. -/
  initHeader : List UInt8 → Checked (List UInt8)
  zeroInit : List UInt8 → Call (List UInt8)
  emitSlices : List (List UInt8) → Call Unit
  /-- `TrustProfile::strict(program_id, layout_id, len).load` -/
  strictLoad : Address → List UInt8 → Nat → AccountView → Account → Checked Unit
  podFromBytes : List UInt8 → Checked Unit
  readLayoutId : List UInt8 → Checked (List UInt8)
  /-- `StateReceipt::<64>` -/
  Receipt : Type
  beginReceipt : List UInt8 → List UInt8 → Call Receipt
  setPhase : Receipt → Phase → Call Receipt
  setCompatImpact : Receipt → CompatImpact → Call Receipt
  setValidationBundleId : Receipt → Nat → Call Receipt
  setMigrationFlags : Receipt → Nat → Call Receipt
  commit : Receipt → List UInt8 → Call Receipt
  toBytes : Receipt → Call (List UInt8)
  /-- `StateSnapshot::<64>` -/
  Snapshot : Type
  Diff : Type
  capture : List UInt8 → Call Snapshot
  diff : Snapshot → List UInt8 → Call Diff
  hasChanges : Diff → Call Bool
  /-- The generated dispatcher of `proc_macro_bench_program`, up to its call of
  `typed_deposit`: the vault of the context and the decoded amount. -/
  bindDeposit : Address → List AccountView → List UInt8 → Ledger → Checked (AccountView × UInt64)
  /-- `ctx.vault_balance_mut()` -/
  vaultBalanceMut : AccountView → Account → Checked Unit

/-- What the runtime and the compiled code around the calls charge. -/
structure Costs where
  /-- The entrypoint, up to the dispatch. -/
  entry : List UInt8 → Nat
  logComputeUnits : Nat
  msg : String → Nat
  /-- The code of this crate itself between the two prints of a disc. -/
  own : UInt8 → Nat

abbrev Metered (A : Type) := Run Machine String Abort A

def call {R : Type} (made : Call R) : Metered R := do
  spend made.units
  log (made.lines.map Subtype.val)
  pure made.answer

/-- `call?` -/
def tryCall {A : Type} (made : Checked A) : Metered A := do
  let answer ← call made
  uncharged (Exec.lift (propagate answer))

def msg (costs : Costs) (text : String) : Metered Unit := do
  spend (costs.msg text)
  log ["Program log: " ++ text]

def consumptionLine (remaining : Nat) : String :=
  consumptionFront ++ toString remaining ++ consumptionBack

def solLogComputeUnits (costs : Costs) : Metered Unit := do
  spend costs.logComputeUnits
  report consumptionLine

def bracketed (costs : Costs) (name : String) (operation : Metered Unit) : Metered Unit := do
  msg costs ("BEGIN " ++ name)
  solLogComputeUnits costs
  operation
  solLogComputeUnits costs
  msg costs ("END " ++ name)

/-- `accounts.first().ok_or(NotEnoughAccountKeys)?`, and the account it views. -/
def onFirst {A : Type} (accounts : List AccountView) (rest : AccountView → Account → Metered A) :
    Metered A := do
  let account ← uncharged (orFail accounts.head? .notEnoughAccountKeys)
  let viewed ← uncharged (Solana.account account)
  rest account viewed

def onOwned {A : Type} (hopper : Hopper) (accounts : List AccountView) (programId : Address)
    (rest : AccountView → Account → Metered A) : Metered A :=
  onFirst accounts fun account viewed => do
    tryCall (hopper.checkOwner account viewed programId)
    rest account viewed

def onWritable {A : Type} (hopper : Hopper) (accounts : List AccountView) (programId : Address)
    (rest : AccountView → Account → Metered A) : Metered A :=
  onOwned hopper accounts programId fun account viewed => do
    tryCall (hopper.checkWritable account)
    rest account viewed

def writeData (account : AccountView) (bytes : List UInt8) : Metered Unit :=
  uncharged (setData account bytes)

section Operations

variable (hopper : Hopper) (costs : Costs)

def headerWritten (account : AccountView) (data : List UInt8) : Metered Unit := do
  let bytes ← tryCall (hopper.writeInitHeader data)
  writeData account bytes

def zeroed (account : AccountView) (data : List UInt8) : Metered Unit := do
  let bytes ← call (hopper.zeroInit data)
  writeData account bytes

def podViewed (data : List UInt8) : Metered Unit := do
  let answer ← call (hopper.podFromBytes data)
  uncharged (Exec.lift (propagate (answer.mapError fun _ => .invalidAccountData)))

def receiptCommitted (data : List UInt8) : Metered Unit := do
  let receipt ← call (hopper.beginReceipt hopper.layoutId data)
  let _ ← call (hopper.commit receipt data)

def fingerprintChecked (data : List UInt8) : Metered Unit := do
  let id ← tryCall (hopper.readLayoutId data)
  spend (costs.own 13)
  uncharged (ensure (id = hopper.layoutId) .invalidAccountData)

def stateDiffed (data : List UInt8) : Metered Unit := do
  let snap ← call (hopper.capture data)
  let diff ← call (hopper.diff snap data)
  let _ ← call (hopper.hasChanges diff)

def fieldSet (account : AccountView) (data : List UInt8) : Metered Unit := do
  tryCall (hopper.overlayMut data)
  spend (costs.own 15)
  -- the release profile leaves the plain `+` unchecked: it wraps
  writeData account (setWordAt benchBalanceOffset (wordAt benchBalanceOffset data + 1) data)

def rawCast (data : List UInt8) : Metered Unit := do
  spend (costs.own 16)
  uncharged (ensure (benchVaultLen ≤ data.length) .accountDataTooSmall)

def receiptFilled (data : List UInt8) : Metered Unit := do
  let receipt ← call (hopper.beginReceipt hopper.layoutId data)
  let receipt ← call (hopper.setPhase receipt .init)
  let receipt ← call (hopper.setCompatImpact receipt .none)
  let receipt ← call (hopper.setValidationBundleId receipt 42)
  let receipt ← call (hopper.setMigrationFlags receipt 0)
  let _ ← call (hopper.commit receipt data)

def receiptEmitted (data : List UInt8) : Metered Unit := do
  let receipt ← call (hopper.beginReceipt hopper.layoutId data)
  let receipt ← call (hopper.setPhase receipt .update)
  let receipt ← call (hopper.commit receipt data)
  let wire ← call (hopper.toBytes receipt)
  call (hopper.emitSlices [wire])

/-- `typed_deposit` on the vault of its context. -/
def typedDeposit (vault : AccountView) (amount : UInt64) : Metered Unit := do
  let viewed ← uncharged (account vault)
  tryCall (hopper.vaultBalanceMut vault viewed)
  spend (costs.own 19)
  let next ← uncharged
    (orFail (checkedAdd (wordAt procBalanceOffset viewed.data) amount) .arithmeticOverflow)
  writeData vault (setWordAt procBalanceOffset next viewed.data)

/-- `proc_macro_bench_program::process_instruction` -/
def typedDispatch (programId : Address) (accounts : List AccountView)
    (instructionData : List UInt8) : Metered Unit := do
  let ledger ← uncharged (Exec.gets Machine.ledger)
  let bound ← tryCall (hopper.bindDeposit programId accounts instructionData ledger)
  typedDeposit hopper costs bound.1 bound.2

/-! ## The discs -/

def benchCheckSigner (accounts : List AccountView) : Metered Unit :=
  onFirst accounts fun account _ =>
    bracketed costs "check_signer" (tryCall (hopper.checkSigner account))

def benchCheckWritable (accounts : List AccountView) : Metered Unit :=
  onFirst accounts fun account _ =>
    bracketed costs "check_writable" (tryCall (hopper.checkWritable account))

def benchCheckOwner (accounts : List AccountView) (programId : Address) : Metered Unit :=
  onFirst accounts fun account viewed =>
    bracketed costs "check_owner" (tryCall (hopper.checkOwner account viewed programId))

def benchCheckAccountTier1 (accounts : List AccountView) (programId : Address) : Metered Unit :=
  onFirst accounts fun account viewed =>
    bracketed costs "check_account_tier1" (tryCall (hopper.load account viewed programId))

def benchCheckKeysEq (accounts : List AccountView) : Metered Unit :=
  match accounts with
  | first :: second :: _ =>
      bracketed costs "check_keys_eq" (tryCall (hopper.checkKeysEq first second))
  | _ => uncharged (Exec.stop (.error .notEnoughAccountKeys))

def benchOverlay (accounts : List AccountView) (programId : Address) : Metered Unit :=
  onOwned hopper accounts programId fun _ viewed =>
    bracketed costs "overlay" (tryCall (hopper.overlay viewed.data))

def benchWriteHeader (accounts : List AccountView) (programId : Address) : Metered Unit :=
  onWritable hopper accounts programId fun account viewed =>
    bracketed costs "write_header" (headerWritten hopper account viewed.data)

def benchZeroInit (accounts : List AccountView) (programId : Address) : Metered Unit :=
  onWritable hopper accounts programId fun account viewed =>
    bracketed costs "zero_init" (zeroed hopper account viewed.data)

def benchWriteProcHeader (accounts : List AccountView) (programId : Address) : Metered Unit :=
  onWritable hopper accounts programId fun account viewed => do
    let bytes ← tryCall (hopper.initHeader viewed.data)
    writeData account bytes

def benchCheckAccountFast (accounts : List AccountView) : Metered Unit :=
  onFirst accounts fun account _ =>
    bracketed costs "check_account_fast" (tryCall (hopper.checkSignerFast account))

def eventPayload : List UInt8 := List.replicate 32 0x42

def benchEmitEvent : Metered Unit :=
  bracketed costs "emit_event" (call (hopper.emitSlices [eventPayload]))

def benchMeasurementOverhead : Metered Unit := do
  msg costs "BEGIN measurement_overhead"
  solLogComputeUnits costs
  solLogComputeUnits costs
  msg costs "END measurement_overhead"

def benchTrustStrictLoad (accounts : List AccountView) (programId : Address) : Metered Unit :=
  onFirst accounts fun account viewed =>
    bracketed costs "trust_strict_load"
      (tryCall (hopper.strictLoad programId hopper.layoutId benchVaultLen account viewed))

def benchPodFromBytes (accounts : List AccountView) (programId : Address) : Metered Unit :=
  onOwned hopper accounts programId fun _ viewed =>
    bracketed costs "pod_from_bytes" (podViewed hopper viewed.data)

def benchReceipt (accounts : List AccountView) (programId : Address) : Metered Unit :=
  onOwned hopper accounts programId fun _ viewed =>
    bracketed costs "receipt_begin_commit" (receiptCommitted hopper viewed.data)

def benchFingerprintCheck (accounts : List AccountView) (programId : Address) : Metered Unit :=
  onOwned hopper accounts programId fun _ viewed =>
    bracketed costs "fingerprint_check" (fingerprintChecked hopper costs viewed.data)

def benchStateDiff (accounts : List AccountView) (programId : Address) : Metered Unit :=
  onOwned hopper accounts programId fun _ viewed =>
    bracketed costs "state_diff" (stateDiffed hopper viewed.data)

def benchOverlayMutFieldSet (accounts : List AccountView) (programId : Address) : Metered Unit :=
  onWritable hopper accounts programId fun account viewed =>
    bracketed costs "overlay_mut_field_set" (fieldSet hopper costs account viewed.data)

def benchRawCastBaseline (accounts : List AccountView) (programId : Address) : Metered Unit :=
  onOwned hopper accounts programId fun _ viewed =>
    bracketed costs "raw_cast_baseline" (rawCast costs viewed.data)

def benchReceiptFull (accounts : List AccountView) (programId : Address) : Metered Unit :=
  onOwned hopper accounts programId fun _ viewed =>
    bracketed costs "receipt_full" (receiptFilled hopper viewed.data)

def benchReceiptEmit (accounts : List AccountView) (programId : Address) : Metered Unit :=
  onOwned hopper accounts programId fun _ viewed =>
    bracketed costs "receipt_emit" (receiptEmitted hopper viewed.data)

def benchProcMacroTypedDispatch (accounts : List AccountView) (programId : Address)
    (instructionData : List UInt8) : Metered Unit :=
  bracketed costs "proc_macro_typed_dispatch"
    (typedDispatch hopper costs programId accounts instructionData)

def dispatch (programId : Address) (accounts : List AccountView) (instructionData : List UInt8)
    (disc : UInt8) : Metered Unit :=
  match disc with
  | 0 => benchCheckSigner hopper costs accounts
  | 1 => benchCheckWritable hopper costs accounts
  | 2 => benchCheckOwner hopper costs accounts programId
  | 3 => benchCheckAccountTier1 hopper costs accounts programId
  | 4 => benchCheckKeysEq hopper costs accounts
  | 5 => benchOverlay hopper costs accounts programId
  | 6 => benchWriteHeader hopper costs accounts programId
  | 7 => benchZeroInit hopper costs accounts programId
  | 8 => benchCheckAccountFast hopper costs accounts
  | 9 => benchEmitEvent hopper costs
  | 10 => benchTrustStrictLoad hopper costs accounts programId
  | 11 => benchPodFromBytes hopper costs accounts programId
  | 12 => benchReceipt hopper costs accounts programId
  | 13 => benchFingerprintCheck hopper costs accounts programId
  | 14 => benchStateDiff hopper costs accounts programId
  | 15 => benchOverlayMutFieldSet hopper costs accounts programId
  | 16 => benchRawCastBaseline hopper costs accounts programId
  | 17 => benchReceiptFull hopper costs accounts programId
  | 18 => benchReceiptEmit hopper costs accounts programId
  | 19 => benchProcMacroTypedDispatch hopper costs accounts programId instructionData
  | 20 => benchWriteProcHeader hopper accounts programId
  | 21 => benchMeasurementOverhead costs
  | _ => uncharged (Exec.stop (.error .invalidInstructionData))

def processInstruction (programId : Address) (accounts : List AccountView)
    (instructionData : List UInt8) : Metered Unit := do
  spend (costs.entry instructionData)
  let disc ← uncharged (orFail instructionData.head? .invalidInstructionData)
  dispatch hopper costs programId accounts instructionData disc

/-- What a disc does between its two prints of the meter, on its own. -/
def measured (programId : Address) (accounts : List AccountView) (instructionData : List UInt8)
    (disc : UInt8) : Metered Unit :=
  match disc with
  | 0 => onFirst accounts fun account _ => tryCall (hopper.checkSigner account)
  | 1 => onFirst accounts fun account _ => tryCall (hopper.checkWritable account)
  | 2 => onFirst accounts fun account viewed =>
      tryCall (hopper.checkOwner account viewed programId)
  | 3 => onFirst accounts fun account viewed => tryCall (hopper.load account viewed programId)
  | 4 =>
      match accounts with
      | first :: second :: _ => tryCall (hopper.checkKeysEq first second)
      | _ => uncharged (Exec.stop (.error .notEnoughAccountKeys))
  | 5 => onFirst accounts fun _ viewed => tryCall (hopper.overlay viewed.data)
  | 6 => onFirst accounts fun account viewed => headerWritten hopper account viewed.data
  | 7 => onFirst accounts fun account viewed => zeroed hopper account viewed.data
  | 8 => onFirst accounts fun account _ => tryCall (hopper.checkSignerFast account)
  | 9 => call (hopper.emitSlices [eventPayload])
  | 10 => onFirst accounts fun account viewed =>
      tryCall (hopper.strictLoad programId hopper.layoutId benchVaultLen account viewed)
  | 11 => onFirst accounts fun _ viewed => podViewed hopper viewed.data
  | 12 => onFirst accounts fun _ viewed => receiptCommitted hopper viewed.data
  | 13 => onFirst accounts fun _ viewed => fingerprintChecked hopper costs viewed.data
  | 14 => onFirst accounts fun _ viewed => stateDiffed hopper viewed.data
  | 15 => onFirst accounts fun account viewed => fieldSet hopper costs account viewed.data
  | 16 => onFirst accounts fun _ viewed => rawCast costs viewed.data
  | 17 => onFirst accounts fun _ viewed => receiptFilled hopper viewed.data
  | 18 => onFirst accounts fun _ viewed => receiptEmitted hopper viewed.data
  | 19 => typedDispatch hopper costs programId accounts instructionData
  | _ => pure ()

end Operations

end HopperBench.BenchInstructions
