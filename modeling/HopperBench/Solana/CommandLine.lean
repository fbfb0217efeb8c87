import HopperBench.Library.Flags
import HopperBench.Solana.Harness

/-!
# The command line of a runner

What the runners share when they read their arguments: the words for a missing
value, addresses from their text, and paths that are resolved on the machine.
-/

set_option autoImplicit false

namespace HopperBench.CommandLine

open HopperBench.Solana HopperBench.Harness
open RouteRun (RowFailure)

/-- What reading arguments asks of the machine, beside its files. -/
structure Shell extends Host where
  fromText : String → Path
  isAbsolute : Path → Bool
  joinPath : Path → Path → Path
  canonicalize : Path → Except String Path
  /-- `CARGO_MANIFEST_DIR` -/
  manifestDir : Path
  parent : Path → Option Path
  addressFromStr : String → Except String Address

def missingValue (flag : String) : RowFailure := .failed ("missing value for " ++ flag)

section Shell

variable (shell : Shell)

def parseProgramId (flag value : String) : Except RowFailure Address :=
  match shell.addressFromStr value with
  | .ok address => .ok address
  | .error err => rowFailure ("invalid " ++ flag ++ " value `" ++ value ++ "`: " ++ err)

def workspaceRoot : Except RowFailure shell.Path :=
  match shell.parent shell.manifestDir with
  | some root => .ok root
  | none =>
      rowFailure ("failed to resolve workspace root from " ++ shell.display shell.manifestDir)

def canonicalizeExisting (path : shell.Path) : Except RowFailure shell.Path :=
  match shell.canonicalize path with
  | .ok resolved => .ok resolved
  | .error err => rowFailure ("failed to resolve " ++ shell.display path ++ ": " ++ err)

/-- `path.map(|p| canonicalize_existing(&p)).transpose()` -/
def canonicalizeOption (path : Option shell.Path) : Except RowFailure (Option shell.Path) :=
  match path with
  | none => .ok none
  | some path => do
      let resolved ← canonicalizeExisting shell path
      .ok (some resolved)

def outDirOf (workspaceRoot : shell.Path) (default : String) (outDir : Option shell.Path) :
    shell.Path :=
  match outDir with
  | some path => if shell.isAbsolute path then path else shell.joinPath workspaceRoot path
  | none => shell.join workspaceRoot default

def pathFlag {S : Type} (put : shell.Path → S → S) : String → S → Except RowFailure S :=
  fun value settings => .ok (put (shell.fromText value) settings)

def idFlag {S : Type} (flag : String) (put : Address → S → S) : String → S → Except RowFailure S :=
  fun value settings => do
    let id ← parseProgramId shell flag value
    .ok (put id settings)

/-! ## What was given -/

/-- A path that is given resolves on the machine. -/
def Resolves (given resolved : Option shell.Path) : Prop :=
  match given with
  | none => resolved = none
  | some path => ∃ found, shell.canonicalize path = .ok found ∧ resolved = some found

/-- A program id that is given is the text of an address. -/
def Decodes (given : Option String) (id : Option Address) : Prop :=
  match given with
  | none => id = none
  | some value => ∃ address, shell.addressFromStr value = .ok address ∧ id = some address

end Shell

section Facts

variable {shell : Shell}

theorem parseProgramId_eq_ok {flag value : String} {id : Address} :
    parseProgramId shell flag value = .ok id ↔ shell.addressFromStr value = .ok id := by
  unfold parseProgramId
  cases shell.addressFromStr value <;> simp [rowFailure]

theorem workspaceRoot_eq_ok {root : shell.Path} :
    workspaceRoot shell = .ok root ↔ shell.parent shell.manifestDir = some root := by
  unfold workspaceRoot
  cases shell.parent shell.manifestDir <;> simp [rowFailure]

theorem canonicalizeOption_eq_ok {given resolved : Option shell.Path} :
    canonicalizeOption shell given = .ok resolved ↔ Resolves shell given resolved := by
  cases given with
  | none => simp [canonicalizeOption, Resolves, eq_comm]
  | some path =>
      simp only [canonicalizeOption, canonicalizeExisting, Resolves]
      cases shell.canonicalize path with
      | ok found => simp [bind, Except.bind, eq_comm]
      | error err => simp [bind, Except.bind, rowFailure]

theorem canonicalizeOption_eq_error {given : Option shell.Path} {e : RowFailure} :
    canonicalizeOption shell given = .error e ↔
      ∃ path, given = some path ∧ canonicalizeExisting shell path = .error e := by
  cases given with
  | none => simp [canonicalizeOption]
  | some path => simp [canonicalizeOption, Sweep.bind_eq_error]

theorem idFlag_eq_ok {S : Type} {flag value : String} {put : Address → S → S}
    {settings next : S} : idFlag shell flag put value settings = .ok next ↔
      ∃ id, shell.addressFromStr value = .ok id ∧ put id settings = next := by
  simp only [idFlag, Sweep.bind_eq_ok, parseProgramId_eq_ok, Except.ok.injEq]

/-! A flag that stores its value in one field, which no other flag changes. -/

theorem owns_pathFlag {S : Type} {table : Flags.Table RowFailure S} {flag : String}
    {put : shell.Path → S → S} {get : S → Option shell.Path}
    (known : table flag = some (pathFlag shell put))
    (stores : ∀ path settings, get (put path settings) = some path)
    (keeps : ∀ arg set value settings next, arg ≠ flag → table arg = some set →
      set value settings = .ok next → get next = get settings) :
    Flags.Owns table flag
      (fun value => (.ok (shell.fromText value) : Except RowFailure shell.Path)) get where
  own := by
    intro set value settings next listed taken
    rw [known] at listed
    cases listed
    cases taken
    exact ⟨_, rfl, stores _ _⟩
  other := keeps

theorem owns_idFlag {S : Type} {table : Flags.Table RowFailure S} {flag : String}
    {put : Address → S → S} {get : S → Option Address}
    (known : table flag = some (idFlag shell flag put))
    (stores : ∀ id settings, get (put id settings) = some id)
    (keeps : ∀ arg set value settings next, arg ≠ flag → table arg = some set →
      set value settings = .ok next → get next = get settings) :
    Flags.Owns table flag shell.addressFromStr get where
  own := by
    intro set value settings next listed taken
    rw [known] at listed
    cases listed
    obtain ⟨id, decoded, rfl⟩ := idFlag_eq_ok.mp taken
    exact ⟨id, decoded, stores _ _⟩
  other := keeps

theorem Decodes.unique {given : Option String} {a b : Option Address}
    (first : Decodes shell given a) (second : Decodes shell given b) : a = b := by
  cases given with
  | none => exact first.trans second.symm
  | some value =>
      obtain ⟨address, decoded, rfl⟩ := first
      obtain ⟨other, decodedOther, rfl⟩ := second
      rw [Except.ok.inj (decoded.symm.trans decodedOther)]

theorem decodes_of_owns {S : Type} {table : Flags.Table RowFailure S} {flag : String}
    {get : S → Option Address} (owns : Flags.Owns table flag shell.addressFromStr get)
    {settings final : S} {pairs : List (String × String)}
    (sets : Flags.Sets table settings pairs final) (unset : get settings = none) :
    Decodes shell (Flags.lastValue flag pairs) (get final) := by
  have holds := owns.read sets
  unfold Decodes
  cases last : Flags.lastValue flag pairs with
  | none =>
      rw [last] at holds
      exact holds.trans unset
  | some value =>
      rw [last] at holds
      exact holds

end Facts

end HopperBench.CommandLine
