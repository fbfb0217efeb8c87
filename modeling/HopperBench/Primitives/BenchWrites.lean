import HopperBench.Primitives.MeterBudget

/-!
# What the primitives program writes

Whatever disc is sent, with whatever accounts, and wherever the run ends, the
program has written nothing or replaced the data of one account: of its first
account, once the framework checked owner and flag, or of the vault that a typed
context bound.  Forgetting the meter, discs 15 and 19 are the instructions that
raise a balance.
-/

set_option autoImplicit false

namespace HopperBench.BenchWrites

open StoppingRun Metered WordField HopperBench.Solana HopperBench.BenchInstructions
  HopperBench.MeasuredBracket

section Looks

variable {A R : Type}

theorem looks_call (made : Call R) : Looks (· = made.answer) (call made) := by
  refine (looks_spend _).bind fun _ _ => ?_
  refine (looks_log _).bind fun _ _ => ?_
  exact looks_pure rfl

theorem looks_tryCall (made : Checked A) : Looks (made.answer = .ok ·) (tryCall made) := by
  refine (looks_call made).bind fun answer same => ?_
  refine looks_uncharged (Exec.reads_lift _) ?_
  intro _ a _ ok
  rw [← same]
  exact propagate_eq_ok.mp (Exec.lift_eq_ok.mp ok).1

theorem looks_msg (costs : Costs) (text : String) : Looks (fun _ => True) (msg costs text) :=
  (looks_spend _).bind fun _ _ => looks_log _

theorem looks_solLogComputeUnits (costs : Costs) :
    Looks (fun _ => True) (solLogComputeUnits costs) :=
  (looks_spend _).bind fun _ _ => looks_report _

theorem looks_orFail (opt : Option A) (e : ProgramError) :
    Looks (opt = some ·) (uncharged (orFail opt e) : Metered A) := by
  refine looks_uncharged (reads_orFail _ _) ?_
  intro _ _ _ ok
  exact (orFail_eq_ok.mp ok).1

end Looks

section Instructions

variable {P : Machine → Prop} {s : Machine}

theorem endsIn_bracketed {operation : Metered Unit} (costs : Costs) (name : String) (here : P s)
    (ends : EndsIn P s operation) : EndsIn P s (bracketed costs name operation) := by
  unfold bracketed
  refine EndsIn.after_look (looks_msg costs _) here fun _ _ => ?_
  refine EndsIn.after_look (looks_solLogComputeUnits costs) here fun _ _ => ?_
  refine ends.before fun _ s' ended => ?_
  refine EndsIn.after_look (looks_solLogComputeUnits costs) ended fun _ _ => ?_
  exact (looks_msg costs _).endsIn ended

theorem endsIn_onFirst {accounts : List AccountView} {k : AccountView → Account → Metered Unit}
    (here : P s) (each : ∀ vault, accounts.head? = some vault →
      EndsIn P s (k vault (s.ledger vault.address))) : EndsIn P s (onFirst accounts k) := by
  refine EndsIn.after_look (looks_orFail _ _) here fun vault listed => ?_
  exact each vault listed

theorem endsIn_onOwned {hopper : Hopper} {accounts : List AccountView} {programId : Address}
    {k : AccountView → Account → Metered Unit} (here : P s)
    (each : ∀ vault, accounts.head? = some vault →
      (hopper.checkOwner vault (s.ledger vault.address) programId).answer = .ok () →
      EndsIn P s (k vault (s.ledger vault.address))) :
    EndsIn P s (onOwned hopper accounts programId k) := by
  refine endsIn_onFirst here fun vault listed => ?_
  refine EndsIn.after_look (looks_tryCall _) here fun _ owned => ?_
  exact each vault listed owned

theorem endsIn_onWritable {hopper : Hopper} {accounts : List AccountView} {programId : Address}
    {k : AccountView → Account → Metered Unit} (here : P s)
    (each : ∀ vault, accounts.head? = some vault →
      (hopper.checkOwner vault (s.ledger vault.address) programId).answer = .ok () →
      (hopper.checkWritable vault).answer = .ok () →
      EndsIn P s (k vault (s.ledger vault.address))) :
    EndsIn P s (onWritable hopper accounts programId k) := by
  refine endsIn_onOwned here fun vault listed owned => ?_
  refine EndsIn.after_look (looks_tryCall _) here fun _ writable => ?_
  exact each vault listed owned writable

theorem endsIn_writeData {vault : AccountView} {bytes : List UInt8}
    (there : P ⟨s.ledger.setData vault.address bytes, s.cpis, s.writes ++ [vault]⟩) :
    EndsIn P s (writeData vault bytes) := fun _ _ => there

end Instructions

/-! ## The discs -/

def NewData (hopper : Hopper) (data bytes : List UInt8) : UInt8 → Prop
  | 6 => (hopper.writeInitHeader data).answer = .ok bytes
  | 7 => bytes = (hopper.zeroInit data).answer
  | 15 => (hopper.overlayMut data).answer = .ok () ∧
      bytes = setWordAt BenchProgram.benchBalanceOffset
        (wordAt BenchProgram.benchBalanceOffset data + 1) data
  | 20 => (hopper.initHeader data).answer = .ok bytes
  | _ => False

def replaced (s : Machine) (vault : AccountView) (bytes : List UInt8) : Machine :=
  ⟨s.ledger.setData vault.address bytes, s.cpis, s.writes ++ [vault]⟩

/-- What the machine may have become when the program was sent the instruction. -/
inductive Written (hopper : Hopper) (programId : Address) (accounts : List AccountView)
    (instructionData : List UInt8) (s : Machine) : Machine → Prop where
  | nothing : Written hopper programId accounts instructionData s s
  | first {disc : UInt8} {vault : AccountView} {bytes : List UInt8}
      (sent : instructionData.head? = some disc) (listed : accounts.head? = some vault)
      (owned : (hopper.checkOwner vault (s.ledger vault.address) programId).answer = .ok ())
      (writable : (hopper.checkWritable vault).answer = .ok ())
      (new : NewData hopper (s.ledger vault.address).data bytes disc) :
      Written hopper programId accounts instructionData s (replaced s vault bytes)
  | bound {vault : AccountView} {amount : UInt64} (sent : instructionData.head? = some 19)
      (isBound : (hopper.bindDeposit programId accounts instructionData s.ledger).answer =
        .ok (vault, amount))
      (granted : (hopper.vaultBalanceMut vault (s.ledger vault.address)).answer = .ok ())
      (fits : (wordAt BenchProgram.procBalanceOffset (s.ledger vault.address).data).toNat +
        amount.toNat < 2 ^ 64) :
      Written hopper programId accounts instructionData s
        (BenchProgram.raised BenchProgram.procBalanceOffset amount vault s)

section Discs

variable {hopper : Hopper} {costs : Costs} {programId : Address} {accounts : List AccountView}
  {instructionData : List UInt8} {s : Machine} {P : Machine → Prop}

theorem endsIn_headerWritten {vault : AccountView} {data : List UInt8} (here : P s)
    (there : ∀ bytes, NewData hopper data bytes 6 → P (replaced s vault bytes)) :
    EndsIn P s (headerWritten hopper vault data) :=
  EndsIn.after_look (looks_tryCall _) here fun bytes answered =>
    endsIn_writeData (there bytes answered)

theorem endsIn_zeroed {vault : AccountView} {data : List UInt8} (here : P s)
    (there : ∀ bytes, NewData hopper data bytes 7 → P (replaced s vault bytes)) :
    EndsIn P s (zeroed hopper vault data) :=
  EndsIn.after_look (looks_call _) here fun bytes answered =>
    endsIn_writeData (there bytes answered)

theorem endsIn_fieldSet {vault : AccountView} {data : List UInt8} (here : P s)
    (there : ∀ bytes, NewData hopper data bytes 15 → P (replaced s vault bytes)) :
    EndsIn P s (fieldSet hopper costs vault data) := by
  refine EndsIn.after_look (looks_tryCall _) here fun _ granted => ?_
  refine EndsIn.after_look (looks_spend _) here fun _ _ => ?_
  exact endsIn_writeData (there _ ⟨granted, rfl⟩)

theorem endsIn_typedDispatch (sent : instructionData.head? = some 19) :
    EndsIn (Written hopper programId accounts instructionData s) s
      (typedDispatch hopper costs programId accounts instructionData) := by
  have here : Written hopper programId accounts instructionData s s := .nothing
  unfold typedDispatch BenchInstructions.typedDeposit
  refine EndsIn.after_gets ?_
  refine EndsIn.after_look (looks_tryCall _) here fun bound isBound => ?_
  refine EndsIn.after_gets ?_
  refine EndsIn.after_look (looks_tryCall _) here fun _ granted => ?_
  refine EndsIn.after_look (looks_spend _) here fun _ _ => ?_
  refine EndsIn.after_look (looks_orFail _ _) here fun next sum => ?_
  obtain ⟨fits, rfl⟩ := CheckedWord.checkedAdd_eq_some_add.mp sum
  exact endsIn_writeData (.bound sent isBound granted fits)

theorem looks_of_stop (e : ProgramError) :
    Looks (fun _ => True) (uncharged (Exec.stop (.error e)) : Metered Unit) := fun _ => rfl

theorem looks_podViewed (data : List UInt8) : Looks (fun _ => True) (podViewed hopper data) :=
  (looks_call _).bind fun _ _ => looks_uncharged (Exec.reads_lift _) fun _ _ _ _ => trivial

theorem looks_receiptCommitted (data : List UInt8) :
    Looks (fun _ => True) (receiptCommitted hopper data) :=
  (looks_call _).bind fun _ _ => (looks_call _).bind fun _ _ => looks_pure trivial

theorem looks_fingerprintChecked (data : List UInt8) :
    Looks (fun _ => True) (fingerprintChecked hopper costs data) :=
  (looks_tryCall _).bind fun _ _ => (looks_spend _).bind fun _ _ =>
    looks_uncharged (reads_ensure _ _) fun _ _ _ _ => trivial

theorem looks_stateDiffed (data : List UInt8) : Looks (fun _ => True) (stateDiffed hopper data) :=
  (looks_call _).bind fun _ _ => (looks_call _).bind fun _ _ => (looks_call _).bind fun _ _ =>
    looks_pure trivial

theorem looks_rawCast (data : List UInt8) : Looks (fun _ => True) (rawCast costs data) :=
  (looks_spend _).bind fun _ _ => looks_uncharged (reads_ensure _ _) fun _ _ _ _ => trivial

theorem looks_receiptFilled (data : List UInt8) :
    Looks (fun _ => True) (receiptFilled hopper data) := by
  unfold receiptFilled
  refine (looks_call _).bind fun _ _ => ?_
  refine (looks_call _).bind fun _ _ => ?_
  refine (looks_call _).bind fun _ _ => ?_
  refine (looks_call _).bind fun _ _ => ?_
  refine (looks_call _).bind fun _ _ => ?_
  exact (looks_call _).bind fun _ _ => looks_pure trivial

theorem looks_receiptEmitted (data : List UInt8) :
    Looks (fun _ => True) (receiptEmitted hopper data) := by
  unfold receiptEmitted
  refine (looks_call _).bind fun _ _ => ?_
  refine (looks_call _).bind fun _ _ => ?_
  refine (looks_call _).bind fun _ _ => ?_
  refine (looks_call _).bind fun _ _ => ?_
  exact fun m => (looks_call _ m).mono (fun _ _ same => ⟨same.1, trivial⟩) fun _ _ same => same

theorem endsIn_look {Q : Unit → Prop} {operation : Metered Unit} (name : String)
    (looks : Looks Q operation) (here : P s) : EndsIn P s (bracketed costs name operation) :=
  endsIn_bracketed costs name here (looks.endsIn here)

theorem endsIn_dispatch {disc : UInt8} (sent : instructionData.head? = some disc) :
    EndsIn (Written hopper programId accounts instructionData s) s
      (dispatch hopper costs programId accounts instructionData disc) := by
  have here : Written hopper programId accounts instructionData s s := .nothing
  unfold dispatch
  split
  · exact endsIn_onFirst here fun _ _ => endsIn_look _ (looks_tryCall _) here
  · exact endsIn_onFirst here fun _ _ => endsIn_look _ (looks_tryCall _) here
  · exact endsIn_onFirst here fun _ _ => endsIn_look _ (looks_tryCall _) here
  · exact endsIn_onFirst here fun _ _ => endsIn_look _ (looks_tryCall _) here
  · unfold benchCheckKeysEq
    split
    · exact endsIn_look _ (looks_tryCall _) here
    · exact (looks_of_stop _).endsIn here
  · exact endsIn_onOwned here fun _ _ _ => endsIn_look _ (looks_tryCall _) here
  · exact endsIn_onWritable here fun _ listed owned writable =>
      endsIn_bracketed costs _ here (endsIn_headerWritten here fun _ new =>
        .first sent listed owned writable new)
  · exact endsIn_onWritable here fun _ listed owned writable =>
      endsIn_bracketed costs _ here (endsIn_zeroed here fun _ new =>
        .first sent listed owned writable new)
  · exact endsIn_onFirst here fun _ _ => endsIn_look _ (looks_tryCall _) here
  · exact endsIn_look _ (looks_call _) here
  · exact endsIn_onFirst here fun _ _ => endsIn_look _ (looks_tryCall _) here
  · exact endsIn_onOwned here fun _ _ _ => endsIn_look _ (looks_podViewed _) here
  · exact endsIn_onOwned here fun _ _ _ => endsIn_look _ (looks_receiptCommitted _) here
  · exact endsIn_onOwned here fun _ _ _ => endsIn_look _ (looks_fingerprintChecked _) here
  · exact endsIn_onOwned here fun _ _ _ => endsIn_look _ (looks_stateDiffed _) here
  · exact endsIn_onWritable here fun _ listed owned writable =>
      endsIn_bracketed costs _ here (endsIn_fieldSet here fun _ new =>
        .first sent listed owned writable new)
  · exact endsIn_onOwned here fun _ _ _ => endsIn_look _ (looks_rawCast _) here
  · exact endsIn_onOwned here fun _ _ _ => endsIn_look _ (looks_receiptFilled _) here
  · exact endsIn_onOwned here fun _ _ _ => endsIn_look _ (looks_receiptEmitted _) here
  · exact endsIn_bracketed costs _ here (endsIn_typedDispatch sent)
  · refine endsIn_onWritable here fun _ listed owned writable => ?_
    refine EndsIn.after_look (looks_tryCall _) here fun _ new => ?_
    exact endsIn_writeData (.first sent listed owned writable new)
  · have idle : EndsIn (Written hopper programId accounts instructionData s) s
        (pure () : Metered Unit) :=
      fun _ _ => here
    exact endsIn_bracketed costs "measurement_overhead" here idle
  · exact (looks_of_stop _).endsIn here

end Discs

/-- Wherever a run of the program ends, also when the meter runs out, it wrote
nothing, or the data of its first account under the checks of a writing disc, or
the balance of the vault that disc 19 bound. -/
theorem bench_write_discipline (hopper : Hopper) (costs : Costs) (programId : Address)
    (accounts : List AccountView) (instructionData : List UInt8) (s : Machine) (n : Nat)
    (lines : List String) :
    Written hopper programId accounts instructionData s
      ((processInstruction hopper costs programId accounts instructionData).run
        ⟨s, n, lines⟩).2.state := by
  have here : Written hopper programId accounts instructionData s s := .nothing
  have ends : EndsIn (Written hopper programId accounts instructionData s) s
      (processInstruction hopper costs programId accounts instructionData) := by
    refine EndsIn.after_look (looks_spend _) here fun _ _ => ?_
    refine EndsIn.after_look (looks_orFail _ _) here fun disc sent => ?_
    exact endsIn_dispatch sent
  have ended := Exec.meets_iff.mp (ends n lines)
  rcases ran : (processInstruction hopper costs programId accounts instructionData).run
    ⟨s, n, lines⟩ with ⟨halt | u, t⟩
  · exact ended.2 halt t ran
  · exact ended.1 u t ran

/-! ## Forgetting the meter -/

/-- The answers of the framework, without their price. -/
def plain (hopper : Hopper) : BenchProgram.Framework where
  checkOwner := fun view account programId => (hopper.checkOwner view account programId).answer
  checkWritable := fun view => (hopper.checkWritable view).answer
  overlayMut := fun data => (hopper.overlayMut data).answer
  vaultBalanceMut := fun view account => (hopper.vaultBalanceMut view account).answer

section Erases

variable {A R : Type}

theorem erases_call (made : Call R) : Erases (call made) (pure made.answer) := by
  have parts := (erases_spend (S := Machine) (L := String) (E := Abort) made.units).bind fun _ =>
    (erases_log (made.lines.map Subtype.val)).bind fun _ => erases_pure made.answer
  exact parts.congr fun _ => rfl

theorem erases_tryCall (made : Checked A) :
    Erases (tryCall made) (Exec.lift (propagate made.answer)) :=
  ((erases_call made).bind fun _ => erases_uncharged _).congr fun _ => rfl

theorem erases_bracketed {operation : Metered Unit} {y : Program Unit} (costs : Costs)
    (name : String) (erases : Erases operation y) :
    Erases (bracketed costs name operation) y := by
  have printed : Erases (solLogComputeUnits costs) (pure ()) :=
    ((erases_spend _).bind fun _ => erases_report consumptionLine).congr fun _ => rfl
  have logged : ∀ text, Erases (msg costs text) (pure ()) := fun text =>
    ((erases_spend _).bind fun _ => erases_log ["Program log: " ++ text]).congr fun _ => rfl
  have around := (logged ("BEGIN " ++ name)).bind fun _ => printed.bind fun _ =>
    erases.bind fun _ => printed.bind fun _ => logged ("END " ++ name)
  refine around.congr fun s => ?_
  change (y >>= fun _ => pure ()).run s = y.run s
  rw [Exec.run_bind]
  rcases y.run s with ⟨_ | _, _⟩ <;> rfl

variable (hopper : Hopper) (costs : Costs) (programId : Address) (accounts : List AccountView)
  (instructionData : List UInt8)

theorem erases_benchOverlayMutFieldSet :
    Erases (benchOverlayMutFieldSet hopper costs accounts programId)
      (BenchProgram.benchOverlayMutFieldSet (plain hopper) accounts programId) := by
  refine (erases_uncharged _).bind fun vault => (erases_uncharged _).bind fun viewed => ?_
  refine (erases_tryCall _).bind fun _ => (erases_tryCall _).bind fun _ => ?_
  refine erases_bracketed costs _ ?_
  refine (erases_tryCall _).bind fun _ => ?_
  exact ((erases_spend _).bind fun _ => erases_uncharged _).congr fun _ => rfl

/-- Disc 19 without the meter: bind the context, then deposit. -/
def plainDispatch (hopper : Hopper) (programId : Address) (accounts : List AccountView)
    (instructionData : List UInt8) : Program Unit := do
  let ledger ← Exec.gets Machine.ledger
  let bound ← Exec.lift (propagate (hopper.bindDeposit programId accounts instructionData
    ledger).answer)
  BenchProgram.typedDeposit (plain hopper) bound.1 bound.2

theorem erases_typedDispatch :
    Erases (typedDispatch hopper costs programId accounts instructionData)
      (plainDispatch hopper programId accounts instructionData) := by
  refine (erases_uncharged _).bind fun ledger => (erases_tryCall _).bind fun bound => ?_
  refine (erases_uncharged _).bind fun viewed => (erases_tryCall _).bind fun _ => ?_
  have rest := (erases_spend (S := Machine) (L := String) (E := Abort) (costs.own 19)).bind fun _ =>
    (erases_uncharged (orFail (CheckedWord.checkedAdd
      (wordAt BenchProgram.procBalanceOffset viewed.data) bound.2) .arithmeticOverflow)).bind
      fun next => erases_uncharged
        (setData bound.1 (setWordAt BenchProgram.procBalanceOffset next viewed.data))
  exact rest.congr fun _ => rfl

end Erases

/-- A metered run that returned is a run of the plain program, and on a meter that
is full enough it returns exactly when the plain program does. -/
def Refines (x : Metered Unit) (y : Program Unit) : Prop :=
  ∀ s, (∀ n lines u t, x.run ⟨s, n, lines⟩ = (.ok u, t) → y.run s = (.ok u, t.state)) ∧
    ∃ units, ∀ n lines u, units ≤ n →
      ((x.run ⟨s, n, lines⟩).1 = .ok u ↔ (y.run s).1 = .ok u)

theorem refines_of_erases {x : Metered Unit} {y : Program Unit} (erases : Erases x y) :
    Refines x y :=
  fun s => ⟨fun _ _ _ _ ok => erases.run_eq_ok ok, erases.returns_iff s⟩

/-- Discs 15 and 19 of the metered program refine the instructions that raise a
stored balance. -/
theorem balance_discs_refine (hopper : Hopper) (costs : Costs) (programId : Address)
    (accounts : List AccountView) (extra : List UInt8) :
    Refines (processInstruction hopper costs programId accounts (15 :: extra))
      (BenchProgram.benchOverlayMutFieldSet (plain hopper) accounts programId) ∧
    Refines (processInstruction hopper costs programId accounts (19 :: extra))
      (plainDispatch hopper programId accounts (19 :: extra)) := by
  constructor
  · have entered := (erases_spend (costs.entry (15 :: extra))).bind fun _ =>
      erases_benchOverlayMutFieldSet hopper costs programId accounts
    exact refines_of_erases (entered.congr fun _ => rfl)
  · have entered := (erases_spend (costs.entry (19 :: extra))).bind fun _ =>
      erases_bracketed costs "proc_macro_typed_dispatch"
        (erases_typedDispatch hopper costs programId accounts (19 :: extra))
    exact refines_of_erases (entered.congr fun _ => rfl)

end HopperBench.BenchWrites
