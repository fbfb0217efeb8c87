import HopperBench.Library.CheckedWord
import HopperBench.Library.DecimalText
import HopperBench.Solana.Runtime
import Mathlib.Data.List.Basic
import Mathlib.Logic.Relation

/-!
# The bracket in the logs

The runner of the primitives program reads the compute meter off the log lines
of an invocation: two lines of one fixed form bracket the measured operation,
and the figure is the first minus the second.  Everything else a program logs is
noise, which may stand anywhere between, before and after the two.
-/

set_option autoImplicit false

namespace HopperBench.BracketedDelta

open CheckedWord HopperBench.Solana

/-! ## Reading the lines -/

/-- `s.strip_prefix(front)` -/
def stripPrefix (s front : String) : Option String :=
  (s.toList.dropPrefix? front.toList).map String.ofList

/-- `s.strip_suffix(back)` -/
def stripSuffix (s back : String) : Option String :=
  (s.toList.dropSuffix? back.toList).map String.ofList

/-- `text.parse::<u64>()` -/
def parseU64 (text : String) : Except DecimalText.ParseError UInt64 :=
  (DecimalText.parse (2 ^ 64) text.toList).map UInt64.ofNat

def consumptionFront : String := "Program consumption: "

def consumptionBack : String := " units remaining"

/-- The loop over the lines, from the values pushed so far. -/
def remainingFrom : List UInt64 → List String → Except String (List UInt64)
  | remaining, [] => .ok remaining
  | remaining, line :: logs =>
      match stripPrefix line consumptionFront with
      | none => remainingFrom remaining logs
      | some rest =>
          match stripSuffix rest consumptionBack with
          | none => remainingFrom remaining logs
          | some value =>
              match parseU64 value with
              | .ok parsed => remainingFrom (remaining ++ [parsed]) logs
              | .error err =>
                  .error ("bad consumption line `" ++ line ++ "`: " ++ err.message)

/-- The match over the collected values. -/
def deltaOf : List UInt64 → Except String (Option UInt64)
  | [] => .ok none
  | [first, second] =>
      match checkedSub first second with
      | some delta => .ok (some delta)
      | none => .error ("consumption bracket went backwards: " ++ toString first ++ " -> " ++
          toString second)
  | other => .error ("expected 0 or 2 consumption lines, found " ++ toString other.length)

def bracketedDelta (logs : List String) : Except String (Option UInt64) := do
  let remaining ← remainingFrom [] logs
  deltaOf remaining

/-! ## What the lines show -/

def IsConsumption (line v : String) : Prop := line = consumptionFront ++ v ++ consumptionBack

/-- The texts shown by the lines of `logs`, in order. -/
inductive Shows : List String → List String → Prop where
  | done : Shows [] []
  | noise {line : String} {logs texts : List String} (isNoise : ∀ v, ¬IsConsumption line v)
      (rest : Shows logs texts) : Shows (line :: logs) texts
  | value {line v : String} {logs texts : List String} (shown : IsConsumption line v)
      (rest : Shows logs texts) : Shows (line :: logs) (v :: texts)

/-- `logs'` is `logs` with one line of another form put in somewhere. -/
inductive InsertsNoise : List String → List String → Prop where
  | at (front : List String) {line : String} (back : List String)
      (isNoise : ∀ v, ¬IsConsumption line v) : InsertsNoise (front ++ back) (front ++ line :: back)

/-- What is left after any insertions and deletions of noise, and so also after
noise was moved to another place. -/
def SameBracket : List String → List String → Prop := Relation.EqvGen InsertsNoise

theorem stripPrefix_eq_some {s front t : String} :
    stripPrefix s front = some t ↔ s = front ++ t := by
  simp only [stripPrefix, Option.map_eq_some_iff, List.dropPrefix?_eq_some_iff, beq_iff_eq]
  constructor
  · intro given
    obtain ⟨_, ⟨_, parts, rfl⟩, rfl⟩ := given
    rw [← String.toList_inj, String.toList_append, String.toList_ofList, parts]
  · rintro rfl
    exact ⟨t.toList, ⟨_, String.toList_append, rfl⟩, String.ofList_toList⟩

theorem stripSuffix_eq_some {s back t : String} :
    stripSuffix s back = some t ↔ s = t ++ back := by
  simp only [stripSuffix, Option.map_eq_some_iff, List.dropSuffix?_eq_some_iff, beq_iff_eq]
  constructor
  · intro given
    obtain ⟨_, ⟨_, parts, rfl⟩, rfl⟩ := given
    rw [← String.toList_inj, String.toList_append, String.toList_ofList, parts]
  · rintro rfl
    exact ⟨t.toList, ⟨_, String.toList_append, rfl⟩, String.ofList_toList⟩

theorem isConsumption_iff {line v : String} :
    IsConsumption line v ↔ ∃ rest, stripPrefix line consumptionFront = some rest ∧
      stripSuffix rest consumptionBack = some v := by
  simp only [stripPrefix_eq_some, stripSuffix_eq_some, IsConsumption]
  constructor
  · rintro rfl
    exact ⟨_, String.append_assoc, rfl⟩
  · intro given
    obtain ⟨_, rfl, rfl⟩ := given
    exact String.append_assoc.symm

theorem IsConsumption.unique {line v w : String} (first : IsConsumption line v)
    (second : IsConsumption line w) : w = v := by
  obtain ⟨rest, stripped, shown⟩ := isConsumption_iff.mp first
  obtain ⟨rest', stripped', shown'⟩ := isConsumption_iff.mp second
  rw [stripped, Option.some.injEq] at stripped'
  rw [← stripped', shown, Option.some.injEq] at shown'
  exact shown'.symm

theorem shows_total : ∀ logs : List String, ∃ texts, Shows logs texts := by
  intro logs
  induction logs with
  | nil => exact ⟨[], .done⟩
  | cons line logs ih =>
      obtain ⟨texts, rest⟩ := ih
      by_cases shown : ∃ v, IsConsumption line v
      · obtain ⟨v, isValue⟩ := shown
        exact ⟨v :: texts, .value isValue rest⟩
      · exact ⟨texts, .noise (not_exists.mp shown) rest⟩

theorem Shows.unique {logs texts others : List String} (first : Shows logs texts)
    (second : Shows logs others) : others = texts := by
  induction first generalizing others with
  | done =>
      cases second
      rfl
  | noise isNoise _ ih =>
      cases second with
      | noise _ rest => exact ih rest
      | value shown _ => exact absurd shown (isNoise _)
  | value shown _ ih =>
      cases second with
      | noise isNoise _ => exact absurd shown (isNoise _)
      | value shown' rest => rw [shown.unique shown', ih rest]

theorem Shows.insert {line : String} (isNoise : ∀ v, ¬IsConsumption line v) {back : List String} :
    ∀ {front texts : List String}, Shows (front ++ back) texts →
      Shows (front ++ line :: back) texts := by
  intro front
  induction front with
  | nil =>
      intro texts shows
      exact .noise isNoise shows
  | cons head front ih =>
      intro texts shows
      cases shows with
      | noise headNoise rest => exact .noise headNoise (ih rest)
      | value shown rest => exact .value shown (ih rest)

theorem SameBracket.shows_iff {logs logs' : List String} (same : SameBracket logs logs') :
    ∀ texts, Shows logs texts ↔ Shows logs' texts := by
  induction same with
  | rel _ _ inserts =>
      obtain ⟨front, back, isNoise⟩ := inserts
      intro texts
      refine ⟨Shows.insert isNoise, ?_⟩
      intro shows
      obtain ⟨texts', shows'⟩ := shows_total (front ++ back)
      rw [← (shows'.insert isNoise).unique shows] at shows'
      exact shows'
  | refl => exact fun _ => Iff.rfl
  | symm _ _ _ ih => exact fun texts => (ih texts).symm
  | trans _ _ _ _ _ ih ih' => exact fun texts => (ih texts).trans (ih' texts)

/-! ## The loop over the shown texts -/

/-- The loop, with every line of another form left out. -/
def readTexts : List UInt64 → List String → Except String (List UInt64)
  | remaining, [] => .ok remaining
  | remaining, v :: texts =>
      match parseU64 v with
      | .ok parsed => readTexts (remaining ++ [parsed]) texts
      | .error err => .error ("bad consumption line `" ++
          (consumptionFront ++ v ++ consumptionBack) ++ "`: " ++ err.message)

theorem remainingFrom_noise {line : String} (isNoise : ∀ v, ¬IsConsumption line v)
    (remaining : List UInt64) (logs : List String) :
    remainingFrom remaining (line :: logs) = remainingFrom remaining logs := by
  rw [remainingFrom]
  split
  · rfl
  case h_2 rest stripped =>
    split
    · rfl
    case h_2 v shown => exact absurd (isConsumption_iff.mpr ⟨rest, stripped, shown⟩) (isNoise v)

theorem remainingFrom_value {line v : String} (shown : IsConsumption line v)
    (remaining : List UInt64) (logs : List String) :
    remainingFrom remaining (line :: logs) =
      match parseU64 v with
      | .ok parsed => remainingFrom (remaining ++ [parsed]) logs
      | .error err => .error ("bad consumption line `" ++ line ++ "`: " ++ err.message) := by
  obtain ⟨rest, stripped, ending⟩ := isConsumption_iff.mp shown
  rw [remainingFrom, stripped]
  simp only [ending]

theorem remainingFrom_eq_readTexts {logs texts : List String} (shows : Shows logs texts) :
    ∀ remaining, remainingFrom remaining logs = readTexts remaining texts := by
  induction shows with
  | done => exact fun _ => rfl
  | noise isNoise _ ih =>
      intro remaining
      rw [remainingFrom_noise isNoise, ih]
  | value shown _ ih =>
      intro remaining
      rw [remainingFrom_value shown, readTexts, ← shown]
      simp only [ih]

def Reads : List String → List UInt64 → Prop := List.Forall₂ fun v n => parseU64 v = .ok n

theorem readTexts_of_reads {texts : List String} {ns : List UInt64} (reads : Reads texts ns) :
    ∀ remaining, readTexts remaining texts = .ok (remaining ++ ns) := by
  induction reads with
  | nil =>
      intro remaining
      rw [readTexts, List.append_nil]
  | cons parsed _ ih =>
      intro remaining
      rw [readTexts, parsed]
      simp only [ih, List.append_assoc, List.singleton_append]

theorem readTexts_of_unparsable {texts : List String}
    (bad : ∃ v ∈ texts, ∀ n, parseU64 v ≠ .ok n) :
    ∀ remaining, ∃ message, readTexts remaining texts = .error message := by
  induction texts with
  | nil =>
      obtain ⟨_, impossible, _⟩ := bad
      cases impossible
  | cons head texts ih =>
      intro remaining
      rw [readTexts]
      cases parsed : parseU64 head with
      | error err => exact ⟨_, rfl⟩
      | ok n =>
          obtain ⟨v, member, unparsed⟩ := bad
          rcases List.mem_cons.mp member with rfl | later
          · exact absurd parsed (unparsed n)
          · exact ih ⟨v, later, unparsed⟩ _

/-! ## The figure -/

structure Classified (texts : List String) (result : Except String (Option UInt64)) : Prop where
  unparsable : (∃ v ∈ texts, ∀ n, parseU64 v ≠ .ok n) → ∃ message, result = .error message
  unbracketed : texts = [] → result = .ok none
  bracketed : ∀ a b, Reads texts [a, b] → b ≤ a → result = .ok (some (a - b))
  otherwise : ∀ ns, Reads texts ns → ns ≠ [] → (∀ a b, ns = [a, b] → a < b) →
    ∃ message, result = .error message

theorem bracketedDelta_eq {logs texts : List String} (shows : Shows logs texts) :
    bracketedDelta logs = (readTexts [] texts).bind deltaOf := by
  rw [bracketedDelta, remainingFrom_eq_readTexts shows]
  rfl

theorem SameBracket.bracketedDelta_eq {logs logs' : List String}
    (same : SameBracket logs logs') : bracketedDelta logs' = bracketedDelta logs := by
  obtain ⟨texts, shows⟩ := shows_total logs
  rw [BracketedDelta.bracketedDelta_eq shows,
    BracketedDelta.bracketedDelta_eq ((same.shows_iff texts).mp shows)]

theorem bracketedDelta_of_reads {logs texts : List String} {ns : List UInt64}
    (shows : Shows logs texts) (reads : Reads texts ns) : bracketedDelta logs = deltaOf ns := by
  rw [bracketedDelta_eq shows, readTexts_of_reads reads, List.nil_append]
  rfl

theorem deltaOf_pair {a b : UInt64} (ordered : b ≤ a) : deltaOf [a, b] = .ok (some (a - b)) := by
  have fits : b.toNat ≤ a.toNat := ordered
  simp only [deltaOf, checkedSub, if_pos fits]

theorem deltaOf_otherwise {ns : List UInt64} (nonempty : ns ≠ [])
    (backwards : ∀ a b, ns = [a, b] → a < b) : ∃ message, deltaOf ns = .error message := by
  match ns with
  | [] => exact absurd rfl nonempty
  | [a] => exact ⟨_, rfl⟩
  | [a, b] =>
      have less : ¬b.toNat ≤ a.toNat := Nat.not_le.mpr (backwards a b rfl)
      simp only [deltaOf, checkedSub, if_neg less]
      exact ⟨_, rfl⟩
  | a :: b :: c :: rest => exact ⟨_, rfl⟩

theorem classified_of_shows {logs texts : List String} (shows : Shows logs texts) :
    Classified texts (bracketedDelta logs) where
  unparsable := by
    intro bad
    obtain ⟨message, failed⟩ := readTexts_of_unparsable bad []
    rw [bracketedDelta_eq shows, failed]
    exact ⟨message, rfl⟩
  unbracketed := by
    rintro rfl
    exact bracketedDelta_of_reads shows .nil
  bracketed := by
    intro a b reads ordered
    rw [bracketedDelta_of_reads shows reads, deltaOf_pair ordered]
  otherwise := by
    intro ns reads nonempty backwards
    rw [bracketedDelta_of_reads shows reads]
    exact deltaOf_otherwise nonempty backwards

theorem parseU64_toString (n : UInt64) : parseU64 (toString n.toNat) = .ok n := by
  have digits : (toString n.toNat).toList = Nat.toDigits 10 n.toNat := Nat.toList_repr
  rw [parseU64, digits, DecimalText.parse_toDigits n.toNat_lt, Except.map, UInt64.ofNat_toNat]

theorem bracketedDelta_of_printed {logs : List String} {first second : UInt64}
    (shows : Shows logs [toString first.toNat, toString second.toNat])
    (ordered : second ≤ first) : bracketedDelta logs = .ok (some (first - second)) :=
  (classified_of_shows shows).bracketed first second
    (.cons (parseU64_toString first) (.cons (parseU64_toString second) .nil)) ordered

example : bracketedDelta ["BEGIN overlay", "Program consumption: 1400 units remaining",
    "Program consumption: units remaining", "Program consumption: 1392 units remaining"] =
      .ok (some 8) := by
  decide +kernel

/-- The figure is decided by the texts the log shows, as `Classified` says, and
lines of another form may be inserted, deleted and reordered anywhere. -/
theorem bracketed_delta_classified (logs : List String) :
    (∃ texts, Shows logs texts ∧ (∀ others, Shows logs others → others = texts) ∧
      Classified texts (bracketedDelta logs)) ∧
    ∀ logs', SameBracket logs logs' → bracketedDelta logs' = bracketedDelta logs := by
  obtain ⟨texts, shows⟩ := shows_total logs
  exact ⟨⟨texts, shows, fun _ other => shows.unique other, classified_of_shows shows⟩,
    fun _ same => same.bracketedDelta_eq⟩

/-! ## One disc -/

def programId : Address := fun _ => 0x7B

def vaultAddress : Address := fun _ => 0x11

def procVaultAddress : Address := fun _ => 0x22

def fixtureLamports : UInt64 := 1000000000

inductive Fixture where
  | vault
  | vaultTwice
  | procVault
  | none

/-- `stale_claim_cu` is only printed. -/
structure DiscSpec where
  disc : UInt8
  name : String
  fixture : Fixture
  extraData : List UInt8

def fixtureAccount (data : List UInt8) : Account := ⟨fixtureLamports, programId, data⟩

def instructionData (disc : UInt8) (extra : List UInt8) : List UInt8 := disc :: extra

/-- `AccountMeta::new(address, true)` -/
def signerMeta (address : Address) : InstructionAccount := ⟨address, true, true⟩

def Fixture.shape (vaultData procVaultData : List UInt8) :
    Fixture → List InstructionAccount × List (Address × Account)
  | vault => ([signerMeta vaultAddress], [(vaultAddress, fixtureAccount vaultData)])
  | vaultTwice => ([signerMeta vaultAddress, signerMeta vaultAddress],
      [(vaultAddress, fixtureAccount vaultData)])
  | procVault => ([signerMeta procVaultAddress],
      [(procVaultAddress, fixtureAccount procVaultData)])
  | none => ([], [])

/-- What the harness returns of one invocation, with the lines its log collector
recorded during it.  A failure is given as it is printed. -/
structure Processed where
  programResult : Except String Unit
  computeUnitsConsumed : UInt64
  recorded : List String

/-- `run_disc`, with `mollusk.process_instruction` under a fresh log collector as
a parameter. -/
def runDisc (processInstruction : InstructionView → List (Address × Account) → Processed)
    (spec : DiscSpec) (vaultData procVaultData : List UInt8) :
    Except String (UInt64 × Option UInt64) :=
  let (metas, accounts) := spec.fixture.shape vaultData procVaultData
  let instruction : InstructionView :=
    ⟨programId, metas, instructionData spec.disc spec.extraData⟩
  let result := processInstruction instruction accounts
  match result.programResult with
  | .error shown => .error ("disc " ++ toString spec.disc ++ " (" ++ spec.name ++ ") failed: " ++
      shown)
  | .ok _ => do
      let bracketed ← bracketedDelta result.recorded
      .ok (result.computeUnitsConsumed, bracketed)

theorem runDisc_of_sameBracket
    {processInstruction other : InstructionView → List (Address × Account) → Processed}
    (results : ∀ i accounts, (other i accounts).programResult =
      (processInstruction i accounts).programResult)
    (units : ∀ i accounts, (other i accounts).computeUnitsConsumed =
      (processInstruction i accounts).computeUnitsConsumed)
    (brackets : ∀ i accounts, SameBracket (processInstruction i accounts).recorded
      (other i accounts).recorded) (spec : DiscSpec) (vaultData procVaultData : List UInt8) :
    runDisc other spec vaultData procVaultData =
      runDisc processInstruction spec vaultData procVaultData := by
  simp only [runDisc, results, units, (brackets _ _).bracketedDelta_eq]

end HopperBench.BracketedDelta
