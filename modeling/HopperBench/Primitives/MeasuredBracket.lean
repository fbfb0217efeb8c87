import HopperBench.Primitives.BenchInstructions
import HopperBench.Router.RouterBench

/-!
# What the bracket measures

A disc that returns was checks, then its operation between the two prints of the
meter.  So the figure read off the log is what the operation pays when it is run
on its own, and one print of the meter on top.
-/

set_option autoImplicit false

namespace HopperBench.MeasuredBracket

open StoppingRun Metered HopperBench.Solana HopperBench.BenchProgram HopperBench.BracketedDelta
  HopperBench.BenchInstructions HopperBench.RouterBench

def Quiet (line : String) : Prop := ∀ v, ¬IsConsumption line v

/-! ## Quiet lines -/

theorem quiet_log (text : String) : Quiet ("Program log: " ++ text) := by
  intro v shown
  have same := congrArg (fun line : String => line.toList.take 9) shown
  simp only [consumptionFront, String.append_assoc, String.toList_append] at same
  rw [List.take_append_of_le_length (by decide), List.take_append_of_le_length (by decide)] at same
  exact absurd same (by decide)

theorem quiet_noise (lines : List Noise) : ∀ line ∈ lines.map Subtype.val, Quiet line := by
  intro line member
  obtain ⟨noise, -, rfl⟩ := List.mem_map.mp member
  exact noise.property

theorem isConsumption_consumptionLine (n : Nat) : IsConsumption (consumptionLine n) (toString n) :=
  rfl

theorem shows_consumptionLine (n : Nat) : Shows [consumptionLine n] [toString n] :=
  .value (isConsumption_consumptionLine n) .done

theorem shows_of_quiet {noise : List String} (quiet : ∀ line ∈ noise, Quiet line) :
    Shows noise [] := by
  induction noise with
  | nil => exact .done
  | cons line rest ih =>
      refine .noise (quiet line List.mem_cons_self) (ih ?_)
      intro later member
      exact quiet later (List.mem_cons_of_mem _ member)

theorem shows_append {front back texts others : List String} (first : Shows front texts)
    (second : Shows back others) : Shows (front ++ back) (texts ++ others) := by
  induction first with
  | done => exact second
  | noise isNoise _ ih => exact .noise isNoise ih
  | value shown _ ih => exact .value shown ih

section Parts

variable {A B R : Type} {m t : Meter Machine String} {b : B} {costs : Costs}

theorem call_eq_ok {made : Call R} {r : R} :
    (call made).run m = (.ok r, t) ↔ made.units ≤ m.remaining ∧ r = made.answer ∧
      t = ⟨m.state, m.remaining - made.units, m.lines ++ made.lines.map Subtype.val⟩ := by
  unfold call
  simp only [Exec.bind_eq_ok, spend_eq_ok, log_eq_ok, Exec.run_pure, Prod.mk.injEq,
    Except.ok.injEq]
  constructor
  · rintro ⟨_, _, ⟨enough, rfl⟩, _, _, rfl, rfl, rfl⟩
    exact ⟨enough, rfl, rfl⟩
  · rintro ⟨enough, rfl, rfl⟩
    exact ⟨(), _, ⟨enough, rfl⟩, (), _, rfl, rfl, rfl⟩

theorem tryCall_eq_ok {made : Checked A} {a : A} :
    (tryCall made).run m = (.ok a, t) ↔ made.answer = .ok a ∧ made.units ≤ m.remaining ∧
      t = ⟨m.state, m.remaining - made.units, m.lines ++ made.lines.map Subtype.val⟩ := by
  unfold tryCall
  simp only [Exec.bind_eq_ok, call_eq_ok, uncharged_eq_ok, Exec.lift_eq_ok, propagate_eq_ok]
  constructor
  · rintro ⟨_, _, ⟨enough, rfl, rfl⟩, _, ⟨returned, rfl⟩, rfl⟩
    exact ⟨returned, enough, rfl⟩
  · rintro ⟨returned, enough, rfl⟩
    exact ⟨_, _, ⟨enough, rfl, rfl⟩, _, ⟨returned, rfl⟩, rfl⟩

theorem msg_bind_eq_ok {text : String} {k : Unit → Metered B} :
    (msg costs text >>= k).run m = (.ok b, t) ↔ costs.msg text ≤ m.remaining ∧
      (k ()).run ⟨m.state, m.remaining - costs.msg text, m.lines ++ ["Program log: " ++ text]⟩ =
        (.ok b, t) := by
  unfold msg
  simp only [Exec.bind_eq_ok, spend_eq_ok, log_eq_ok]
  constructor
  · rintro ⟨_, _, ⟨_, _, ⟨enough, rfl⟩, rfl⟩, ran⟩
    exact ⟨enough, ran⟩
  · rintro ⟨enough, ran⟩
    exact ⟨(), _, ⟨(), _, ⟨enough, rfl⟩, rfl⟩, ran⟩

theorem solLogComputeUnits_bind_eq_ok {k : Unit → Metered B} :
    (solLogComputeUnits costs >>= k).run m = (.ok b, t) ↔ costs.logComputeUnits ≤ m.remaining ∧
      (k ()).run ⟨m.state, m.remaining - costs.logComputeUnits,
        m.lines ++ [consumptionLine (m.remaining - costs.logComputeUnits)]⟩ = (.ok b, t) := by
  unfold solLogComputeUnits
  simp only [Exec.bind_eq_ok, spend_eq_ok, report_eq_ok]
  constructor
  · rintro ⟨_, _, ⟨_, _, ⟨enough, rfl⟩, rfl⟩, ran⟩
    exact ⟨enough, ran⟩
  · rintro ⟨enough, ran⟩
    exact ⟨(), _, ⟨(), _, ⟨enough, rfl⟩, rfl⟩, ran⟩

theorem msg_eq_ok {text : String} {u : Unit} :
    (msg costs text).run m = (.ok u, t) ↔ costs.msg text ≤ m.remaining ∧
      t = ⟨m.state, m.remaining - costs.msg text, m.lines ++ ["Program log: " ++ text]⟩ := by
  unfold msg
  simp only [Exec.bind_eq_ok, spend_eq_ok, log_eq_ok]
  constructor
  · rintro ⟨_, _, ⟨enough, rfl⟩, rfl⟩
    exact ⟨enough, rfl⟩
  · rintro ⟨enough, rfl⟩
    exact ⟨(), _, ⟨enough, rfl⟩, rfl⟩

end Parts

/-! ## The bracket -/

/-- The meter as the opening print of the bracket leaves it. -/
def opened (costs : Costs) (name : String) (m : Meter Machine String) : Meter Machine String :=
  let left := m.remaining - costs.msg ("BEGIN " ++ name) - costs.logComputeUnits
  ⟨m.state, left, m.lines ++ ["Program log: " ++ ("BEGIN " ++ name)] ++ [consumptionLine left]⟩

def closed (costs : Costs) (name : String) (m : Meter Machine String) : Meter Machine String :=
  let left := m.remaining - costs.logComputeUnits
  ⟨m.state, left - costs.msg ("END " ++ name),
    m.lines ++ [consumptionLine left] ++ ["Program log: " ++ ("END " ++ name)]⟩

theorem bracketed_eq_ok {costs : Costs} {name : String} {operation : Metered Unit}
    {m t : Meter Machine String} {u : Unit} :
    (bracketed costs name operation).run m = (.ok u, t) ↔
      (costs.msg ("BEGIN " ++ name) ≤ m.remaining ∧
        costs.logComputeUnits ≤ m.remaining - costs.msg ("BEGIN " ++ name)) ∧
      ∃ inner, operation.run (opened costs name m) = (.ok (), inner) ∧
        costs.logComputeUnits ≤ inner.remaining ∧ t = closed costs name inner ∧
        costs.msg ("END " ++ name) ≤ inner.remaining - costs.logComputeUnits := by
  unfold bracketed
  rw [msg_bind_eq_ok, solLogComputeUnits_bind_eq_ok, Exec.bind_eq_ok]
  simp only [solLogComputeUnits_bind_eq_ok, msg_eq_ok]
  constructor
  · rintro ⟨begins, opens, _, inner, ran, closes, ends, rfl⟩
    exact ⟨⟨begins, opens⟩, inner, ran, closes, rfl, ends⟩
  · rintro ⟨⟨begins, opens⟩, inner, ran, closes, rfl, ends⟩
    exact ⟨begins, opens, (), inner, ran, closes, ends, rfl⟩

/-- From the machine `s`, `x` returns only as checks that leave the machine alone
and log quiet lines, and then the bracket around `operation`. -/
def Measures (costs : Costs) (s : Machine) (x operation : Metered Unit) : Prop :=
  ∀ n lines u t, x.run ⟨s, n, lines⟩ = (.ok u, t) → ∃ n' noise name, n' ≤ n ∧
    (∀ line ∈ noise, Quiet line) ∧
    (bracketed costs name operation).run ⟨s, n', lines ++ noise⟩ = (.ok u, t)

section Measures

variable {costs : Costs} {s : Machine} {x operation : Metered Unit}

theorem measures_bracketed (costs : Costs) (s : Machine) (name : String)
    (operation : Metered Unit) : Measures costs s (bracketed costs name operation) operation := by
  intro n lines u t ran
  refine ⟨n, [], name, Nat.le_refl n, fun _ impossible => absurd impossible List.not_mem_nil, ?_⟩
  rw [List.append_nil]
  exact ran

theorem Measures.after_check {made : Checked Unit} {k : Unit → Metered Unit}
    (rest : Measures costs s (k ()) operation) :
    Measures costs s (tryCall made >>= k) operation := by
  intro n lines u t ran
  rw [Exec.bind_eq_ok] at ran
  obtain ⟨_, _, checked, ran⟩ := ran
  obtain ⟨-, -, rfl⟩ := tryCall_eq_ok.mp checked
  obtain ⟨n', noise, name, fewer, quiet, bracket⟩ := rest _ _ _ _ ran
  refine ⟨n', made.lines.map Subtype.val ++ noise, name, fewer.trans (Nat.sub_le _ _), ?_, ?_⟩
  · intro line member
    rcases List.mem_append.mp member with early | late
    · exact quiet_noise _ line early
    · exact quiet line late
  · rw [← List.append_assoc]
    exact bracket

theorem Measures.after_spend {units : Nat} {k : Unit → Metered Unit}
    (rest : Measures costs s (k ()) operation) :
    Measures costs s (spend units >>= k) operation := by
  intro n lines u t ran
  rw [Exec.bind_eq_ok] at ran
  obtain ⟨_, _, paid, ran⟩ := ran
  obtain ⟨-, rfl⟩ := spend_eq_ok.mp paid
  obtain ⟨n', noise, name, fewer, quiet, bracket⟩ := rest _ _ _ _ ran
  exact ⟨n', noise, name, fewer.trans (Nat.sub_le _ _), quiet, bracket⟩

theorem measures_of_stop (abort : Abort) (operation : Metered Unit) :
    Measures costs s (uncharged (Exec.stop abort)) operation := by
  intro n lines u t ran
  cases ran

theorem Measures.congr {other : Metered Unit} (measures : Measures costs s x operation)
    (same : ∀ n lines, other.run ⟨s, n, lines⟩ = operation.run ⟨s, n, lines⟩) :
    Measures costs s x other := by
  intro n lines u t ran
  obtain ⟨n', noise, name, fewer, quiet, bracket⟩ := measures n lines u t ran
  refine ⟨n', noise, name, fewer, quiet, ?_⟩
  rw [bracketed_eq_ok] at bracket ⊢
  obtain ⟨begins, inner, inside, rest⟩ := bracket
  exact ⟨begins, inner, (same _ _).trans inside, rest⟩

theorem measures_onFirst {k operation : AccountView → Account → Metered Unit}
    (each : ∀ vault viewed, Measures costs s (k vault viewed) (operation vault viewed)) :
    ∀ accounts, Measures costs s (onFirst accounts k) (onFirst accounts operation) := by
  intro accounts
  cases accounts with
  | nil => exact fun _ _ _ _ ran => nomatch ran
  | cons vault _ => exact Measures.congr (each vault (s.ledger vault.address)) fun _ _ => rfl

theorem measures_onOwned {k operation : AccountView → Account → Metered Unit} {hopper : Hopper}
    {programId : Address} {accounts : List AccountView}
    (each : ∀ vault viewed, Measures costs s (k vault viewed) (operation vault viewed)) :
    Measures costs s (onOwned hopper accounts programId k) (onFirst accounts operation) :=
  measures_onFirst (fun vault viewed => (each vault viewed).after_check) accounts

theorem measures_onWritable {k operation : AccountView → Account → Metered Unit} {hopper : Hopper}
    {programId : Address} {accounts : List AccountView}
    (each : ∀ vault viewed, Measures costs s (k vault viewed) (operation vault viewed)) :
    Measures costs s (onWritable hopper accounts programId k) (onFirst accounts operation) :=
  measures_onOwned fun vault viewed => (each vault viewed).after_check

end Measures

section Discs

variable (hopper : Hopper) (costs : Costs) (programId : Address) (accounts : List AccountView)
  (instructionData : List UInt8)

theorem measures_checkKeysEq (s : Machine) :
    Measures costs s (benchCheckKeysEq hopper costs accounts)
      (measured hopper costs programId accounts instructionData 4) := by
  rcases accounts with _ | ⟨first, _ | ⟨second, rest⟩⟩
  · exact measures_of_stop _ _
  · exact measures_of_stop _ _
  · exact measures_bracketed costs s "check_keys_eq" _

/-- Every disc but 20 returns only through the bracket around its operation. -/
theorem dispatch_measures (s : Machine) {disc : UInt8} (bracketedDisc : disc ≠ 20) :
    Measures costs s (dispatch hopper costs programId accounts instructionData disc)
      (measured hopper costs programId accounts instructionData disc) := by
  unfold dispatch
  split
  · exact measures_onFirst (fun _ _ => measures_bracketed costs s _ _) accounts
  · exact measures_onFirst (fun _ _ => measures_bracketed costs s _ _) accounts
  · exact measures_onFirst (fun _ _ => measures_bracketed costs s _ _) accounts
  · exact measures_onFirst (fun _ _ => measures_bracketed costs s _ _) accounts
  · exact measures_checkKeysEq hopper costs programId accounts instructionData s
  · exact measures_onOwned fun _ _ => measures_bracketed costs s _ _
  · exact measures_onWritable fun _ _ => measures_bracketed costs s _ _
  · exact measures_onWritable fun _ _ => measures_bracketed costs s _ _
  · exact measures_onFirst (fun _ _ => measures_bracketed costs s _ _) accounts
  · exact measures_bracketed costs s "emit_event" _
  · exact measures_onFirst (fun _ _ => measures_bracketed costs s _ _) accounts
  · exact measures_onOwned fun _ _ => measures_bracketed costs s _ _
  · exact measures_onOwned fun _ _ => measures_bracketed costs s _ _
  · exact measures_onOwned fun _ _ => measures_bracketed costs s _ _
  · exact measures_onOwned fun _ _ => measures_bracketed costs s _ _
  · exact measures_onWritable fun _ _ => measures_bracketed costs s _ _
  · exact measures_onOwned fun _ _ => measures_bracketed costs s _ _
  · exact measures_onOwned fun _ _ => measures_bracketed costs s _ _
  · exact measures_onOwned fun _ _ => measures_bracketed costs s _ _
  · exact measures_bracketed costs s "proc_macro_typed_dispatch" _
  · exact absurd rfl bracketedDisc
  · exact measures_bracketed costs s "measurement_overhead" (pure ())
  · exact measures_of_stop _ _

end Discs

section Billed

variable {A R : Type}

theorem billed_call (made : Call R) : Billed Quiet (call made) :=
  (billed_spend _).bind fun _ => (billed_log (quiet_noise _)).bind fun _ => billed_pure _

theorem billed_tryCall (made : Checked A) : Billed Quiet (tryCall made) :=
  (billed_call made).bind fun _ => billed_uncharged _

theorem billed_onFirst {k : AccountView → Account → Metered A}
    (each : ∀ vault viewed, Billed Quiet (k vault viewed)) (accounts : List AccountView) :
    Billed Quiet (onFirst accounts k) :=
  (billed_uncharged _).bind fun vault => (billed_uncharged _).bind fun viewed => each vault viewed

variable (hopper : Hopper) (costs : Costs) (programId : Address) (accounts : List AccountView)
  (instructionData data : List UInt8)

theorem billed_receiptFilled : Billed Quiet (receiptFilled hopper data) := by
  unfold receiptFilled
  refine (billed_call _).bind fun _ => ?_
  refine (billed_call _).bind fun _ => ?_
  refine (billed_call _).bind fun _ => ?_
  refine (billed_call _).bind fun _ => ?_
  refine (billed_call _).bind fun _ => ?_
  exact (billed_call _).bind fun _ => billed_pure _

theorem billed_receiptEmitted : Billed Quiet (receiptEmitted hopper data) := by
  unfold receiptEmitted
  refine (billed_call _).bind fun _ => ?_
  refine (billed_call _).bind fun _ => ?_
  refine (billed_call _).bind fun _ => ?_
  exact (billed_call _).bind fun _ => billed_call _

theorem billed_stateDiffed : Billed Quiet (stateDiffed hopper data) := by
  unfold stateDiffed
  refine (billed_call _).bind fun _ => ?_
  refine (billed_call _).bind fun _ => ?_
  exact (billed_call _).bind fun _ => billed_pure _

theorem billed_fieldSet (vault : AccountView) :
    Billed Quiet (fieldSet hopper costs vault data) := by
  unfold fieldSet
  refine (billed_tryCall _).bind fun _ => ?_
  exact (billed_spend _).bind fun _ => billed_uncharged _

theorem billed_fingerprintChecked : Billed Quiet (fingerprintChecked hopper costs data) := by
  unfold fingerprintChecked
  refine (billed_tryCall _).bind fun _ => ?_
  exact (billed_spend _).bind fun _ => billed_uncharged _

theorem billed_typedDispatch :
    Billed Quiet (typedDispatch hopper costs programId accounts instructionData) := by
  unfold typedDispatch BenchInstructions.typedDeposit
  refine (billed_uncharged _).bind fun _ => ?_
  refine (billed_tryCall _).bind fun _ => ?_
  refine (billed_uncharged _).bind fun _ => ?_
  refine (billed_tryCall _).bind fun _ => ?_
  refine (billed_spend _).bind fun _ => ?_
  exact (billed_uncharged _).bind fun _ => billed_uncharged _

theorem billed_measured (disc : UInt8) :
    Billed Quiet (measured hopper costs programId accounts instructionData disc) := by
  unfold measured
  split
  · exact billed_onFirst (fun _ _ => billed_tryCall _) accounts
  · exact billed_onFirst (fun _ _ => billed_tryCall _) accounts
  · exact billed_onFirst (fun _ _ => billed_tryCall _) accounts
  · exact billed_onFirst (fun _ _ => billed_tryCall _) accounts
  · split
    · exact billed_tryCall _
    · exact billed_uncharged _
  · exact billed_onFirst (fun _ _ => billed_tryCall _) accounts
  · exact billed_onFirst (fun _ _ => (billed_tryCall _).bind fun _ => billed_uncharged _) accounts
  · exact billed_onFirst (fun _ _ => (billed_call _).bind fun _ => billed_uncharged _) accounts
  · exact billed_onFirst (fun _ _ => billed_tryCall _) accounts
  · exact billed_call _
  · exact billed_onFirst (fun _ _ => billed_tryCall _) accounts
  · exact billed_onFirst (fun _ _ => (billed_call _).bind fun _ => billed_uncharged _) accounts
  · exact billed_onFirst (fun _ _ => (billed_call _).bind fun _ =>
      (billed_call _).bind fun _ => billed_pure _) accounts
  · exact billed_onFirst
      (fun _ viewed => billed_fingerprintChecked hopper costs viewed.data) accounts
  · exact billed_onFirst (fun _ viewed => billed_stateDiffed hopper viewed.data) accounts
  · exact billed_onFirst
      (fun vault viewed => billed_fieldSet hopper costs viewed.data vault) accounts
  · exact billed_onFirst (fun _ _ => (billed_spend _).bind fun _ => billed_uncharged _) accounts
  · exact billed_onFirst (fun _ viewed => billed_receiptFilled hopper viewed.data) accounts
  · exact billed_onFirst (fun _ viewed => billed_receiptEmitted hopper viewed.data) accounts
  · exact billed_typedDispatch hopper costs programId accounts instructionData
  · exact billed_pure ()

theorem billed_writeProcHeader :
    Billed Quiet (benchWriteProcHeader hopper accounts programId) := by
  refine billed_onFirst (fun _ _ => ?_) accounts
  refine (billed_tryCall _).bind fun _ => ?_
  refine (billed_tryCall _).bind fun _ => ?_
  exact (billed_tryCall _).bind fun _ => billed_uncharged _

end Billed

/-! ## The harness -/

/-- The harness under which the runner invokes the program: the framework the
program is linked to, the charges, the budget of one instruction, and what the
runtime logs around it. -/
structure Harness where
  hopper : Hopper
  costs : Costs
  budget : UInt64
  opening : InstructionView → List Noise
  closing : InstructionView → Except (Halt Abort) Unit → Nat → List Noise
  shown : Halt Abort → String

abbrev MeteredProgram := Address → List AccountView → List UInt8 → Metered Unit

/-- One instruction on a full meter. -/
def Harness.execute (harness : Harness) (program : MeteredProgram) (instruction : InstructionView)
    (accounts : List (Address × Account)) : Except (Halt Abort) Unit × Meter Machine String :=
  (program instruction.programId (instruction.accounts.map InstructionAccount.view)
    instruction.data).run ⟨Machine.start (ledgerOf accounts), harness.budget.toNat, []⟩

def Harness.processInstruction (harness : Harness) (program : MeteredProgram)
    (instruction : InstructionView) (accounts : List (Address × Account)) : Processed :=
  let ran := harness.execute program instruction accounts
  { programResult := ran.1.mapError harness.shown
    computeUnitsConsumed := harness.budget - UInt64.ofNat ran.2.remaining
    recorded := (harness.opening instruction).map Subtype.val ++ ran.2.lines ++
      (harness.closing instruction ran.1 ran.2.remaining).map Subtype.val }

def Harness.bench (harness : Harness) : MeteredProgram :=
  BenchInstructions.processInstruction harness.hopper harness.costs

/-- A program that is nothing but the operation of the disc. -/
def Harness.alone (harness : Harness) (disc : UInt8) : MeteredProgram :=
  fun programId accounts instructionData =>
    measured harness.hopper harness.costs programId accounts instructionData disc

section Figures

variable {harness : Harness} {instruction : InstructionView}
  {accounts : List (Address × Account)} {disc : UInt8} {extra : List UInt8}

theorem bench_measures (hopper : Hopper) (costs : Costs) (programId : Address)
    (views : List AccountView) (s : Machine) (bracketedDisc : disc ≠ 20) :
    Measures costs s (BenchInstructions.processInstruction hopper costs programId views
      (disc :: extra)) (measured hopper costs programId views (disc :: extra) disc) :=
  Measures.after_spend (dispatch_measures hopper costs programId views (disc :: extra) s
    bracketedDisc)

theorem alone_of_bill {bill : Bill Machine String Abort Unit}
    (bills : Bills (measured harness.hopper harness.costs instruction.programId
      (instruction.accounts.map InstructionAccount.view) instruction.data disc)
      (Machine.start (ledgerOf accounts)) bill)
    (returned : bill.result = .ok ()) (enough : bill.units ≤ harness.budget.toNat) :
    let processed := harness.processInstruction (harness.alone disc) instruction accounts
    processed.programResult = .ok () ∧ processed.computeUnitsConsumed.toNat = bill.units := by
  intro processed
  have ran : harness.execute (harness.alone disc) instruction accounts =
      (.ok (), ⟨bill.state, harness.budget.toNat - bill.units,
        [] ++ bill.lines harness.budget.toNat⟩) := by
    have paid := bills.paid harness.budget.toNat [] enough
    rw [returned] at paid
    exact paid
  have left : (UInt64.ofNat (harness.budget.toNat - bill.units)).toNat =
      harness.budget.toNat - bill.units :=
    UInt64.toNat_ofNat_of_lt' (Nat.lt_of_le_of_lt (Nat.sub_le _ _) harness.budget.toNat_lt)
  refine ⟨?_, ?_⟩
  · change (harness.execute (harness.alone disc) instruction accounts).1.mapError _ = _
    rw [ran]
    rfl
  · change (harness.budget - UInt64.ofNat
      (harness.execute (harness.alone disc) instruction accounts).2.remaining).toNat = _
    rw [ran]
    have below : UInt64.ofNat (harness.budget.toNat - bill.units) ≤ harness.budget :=
      UInt64.le_iff_toNat_le.mpr (left.le.trans (Nat.sub_le _ _))
    rw [UInt64.toNat_sub_of_le _ _ below, left]
    omega

theorem bracketed_shows {costs : Costs} {name : String} {operation : Metered Unit} {s : Machine}
    {bill : Bill Machine String Abort Unit} {n : Nat} {noise : List String} {u : Unit}
    {t : Meter Machine String} (bills : Bills operation s bill)
    (quiet : ∀ line ∈ noise, Quiet line) (quietBill : ∀ n, ∀ line ∈ bill.lines n, Quiet line)
    (ran : (bracketed costs name operation).run ⟨s, n, noise⟩ = (.ok u, t)) :
    bill.result = .ok () ∧ ∃ first second, first ≤ n ∧
      first = second + bill.units + costs.logComputeUnits ∧
      Shows t.lines [toString first, toString second] := by
  obtain ⟨-, inner, inside, closes, rfl, -⟩ := bracketed_eq_ok.mp ran
  obtain ⟨returned, enough, rfl⟩ := bills.of_ok inside
  have opens : bill.units ≤ n - costs.msg ("BEGIN " ++ name) - costs.logComputeUnits := enough
  have fits : costs.logComputeUnits ≤
    n - costs.msg ("BEGIN " ++ name) - costs.logComputeUnits - bill.units := closes
  have quietMsg : ∀ text, ∀ line ∈ ["Program log: " ++ text], Quiet line := by
    intro text line member
    rw [List.mem_singleton.mp member]
    exact quiet_log text
  refine ⟨returned, n - costs.msg ("BEGIN " ++ name) - costs.logComputeUnits,
    n - costs.msg ("BEGIN " ++ name) - costs.logComputeUnits - bill.units - costs.logComputeUnits,
    (Nat.sub_le _ _).trans (Nat.sub_le _ _), by omega, ?_⟩
  have before := shows_append (shows_of_quiet quiet) (shows_of_quiet (quietMsg ("BEGIN " ++ name)))
  have first := shows_append before (shows_consumptionLine
    (n - costs.msg ("BEGIN " ++ name) - costs.logComputeUnits))
  have middle := shows_append first (shows_of_quiet (quietBill
    (n - costs.msg ("BEGIN " ++ name) - costs.logComputeUnits)))
  have second := shows_append middle (shows_consumptionLine
    (n - costs.msg ("BEGIN " ++ name) - costs.logComputeUnits - bill.units - costs.logComputeUnits))
  exact shows_append second (shows_of_quiet (quietMsg ("END " ++ name)))

/-- The figure `delta` of a disc: the operation returns on its own too, and
`delta` is what it then pays and one print of the meter. -/
structure Figure (harness : Harness) (instruction : InstructionView)
    (accounts : List (Address × Account)) (disc : UInt8) (delta : UInt64) : Prop where
  returns : (harness.processInstruction (harness.alone disc) instruction accounts).programResult =
    .ok ()
  units : delta.toNat = (harness.processInstruction (harness.alone disc) instruction
    accounts).computeUnitsConsumed.toNat + harness.costs.logComputeUnits

theorem execute_of_programResult {program : MeteredProgram}
    (returned : (harness.processInstruction program instruction accounts).programResult = .ok ()) :
    (harness.execute program instruction accounts).1 = .ok () := by
  have mapped : (harness.execute program instruction accounts).1.mapError harness.shown = .ok () :=
    returned
  cases result : (harness.execute program instruction accounts).1 with
  | error halt =>
      rw [result] at mapped
      cases mapped
  | ok _ => rfl

theorem recorded_shows {program : MeteredProgram} {texts : List String}
    (shows : Shows (harness.execute program instruction accounts).2.lines texts) :
    Shows (harness.processInstruction program instruction accounts).recorded texts := by
  have opening := shows_of_quiet (quiet_noise (harness.opening instruction))
  have closing := shows_of_quiet (quiet_noise (harness.closing instruction
    (harness.execute program instruction accounts).1
    (harness.execute program instruction accounts).2.remaining))
  have around := shows_append (shows_append opening shows) closing
  rw [List.nil_append, List.append_nil] at around
  exact around

/-- A bracketed disc that returns gives a figure, whatever it costs to get there. -/
theorem figure_of_returned (sent : instruction.data = disc :: extra) (bracketedDisc : disc ≠ 20)
    (returned : (harness.processInstruction harness.bench instruction accounts).programResult =
      .ok ()) :
    ∃ delta, bracketedDelta
        (harness.processInstruction harness.bench instruction accounts).recorded =
          .ok (some delta) ∧ Figure harness instruction accounts disc delta := by
  have result := execute_of_programResult returned
  have ran : (harness.bench instruction.programId (instruction.accounts.map
      InstructionAccount.view) instruction.data).run
        ⟨Machine.start (ledgerOf accounts), harness.budget.toNat, []⟩ =
      (.ok (), (harness.execute harness.bench instruction accounts).2) :=
    Exec.run_eq_of_fst result
  rw [sent] at ran
  obtain ⟨n, noise, name, fewer, quiet, bracket⟩ := bench_measures harness.hopper harness.costs
    instruction.programId _ (Machine.start (ledgerOf accounts)) bracketedDisc _ _ _ _ ran
  obtain ⟨bill, bills, quietBill⟩ := billed_measured harness.hopper harness.costs
    instruction.programId (instruction.accounts.map InstructionAccount.view) (disc :: extra) disc
    (Machine.start (ledgerOf accounts))
  obtain ⟨operationReturned, first, second, inBudget, difference, shows⟩ :=
    bracketed_shows bills quiet quietBill bracket
  rw [← sent] at bills
  obtain ⟨aloneReturned, aloneUnits⟩ := alone_of_bill bills operationReturned (by omega)
  have budget := harness.budget.toNat_lt
  have firstValue : (UInt64.ofNat first).toNat = first :=
    UInt64.toNat_ofNat_of_lt' (show first < 2 ^ 64 by omega)
  have secondValue : (UInt64.ofNat second).toNat = second :=
    UInt64.toNat_ofNat_of_lt' (show second < 2 ^ 64 by omega)
  have ordered : UInt64.ofNat second ≤ UInt64.ofNat first :=
    UInt64.le_iff_toNat_le.mpr (by omega)
  rw [← firstValue, ← secondValue] at shows
  refine ⟨UInt64.ofNat first - UInt64.ofNat second,
    bracketedDelta_of_printed (recorded_shows shows) ordered, aloneReturned, ?_⟩
  rw [UInt64.toNat_sub_of_le _ _ ordered, firstValue, secondValue, aloneUnits]
  omega

theorem unbracketed_of_returned (sent : instruction.data = 20 :: extra)
    (returned : (harness.processInstruction harness.bench instruction accounts).programResult =
      .ok ()) :
    bracketedDelta (harness.processInstruction harness.bench instruction accounts).recorded =
      .ok none := by
  have result := execute_of_programResult returned
  have whole : (harness.bench instruction.programId (instruction.accounts.map
      InstructionAccount.view) instruction.data).run
        ⟨Machine.start (ledgerOf accounts), harness.budget.toNat, []⟩ =
      (.ok (), (harness.execute harness.bench instruction accounts).2) :=
    Exec.run_eq_of_fst result
  rw [sent] at whole
  have ran : (spend (harness.costs.entry (20 :: extra)) >>= fun _ =>
      benchWriteProcHeader harness.hopper (instruction.accounts.map InstructionAccount.view)
        instruction.programId).run ⟨Machine.start (ledgerOf accounts), harness.budget.toNat, []⟩ =
      (.ok (), (harness.execute harness.bench instruction accounts).2) := whole
  have billed := (billed_spend (Q := Quiet) (harness.costs.entry (20 :: extra))).bind fun _ =>
    billed_writeProcHeader harness.hopper instruction.programId
      (instruction.accounts.map InstructionAccount.view)
  obtain ⟨bill, bills, quiet⟩ := billed (Machine.start (ledgerOf accounts))
  obtain ⟨-, -, left⟩ := bills.of_ok ran
  have shows : Shows (harness.execute harness.bench instruction accounts).2.lines [] := by
    rw [left]
    exact shows_of_quiet (quiet _)
  exact (classified_of_shows (recorded_shows shows)).unbracketed rfl

end Figures

end HopperBench.MeasuredBracket
