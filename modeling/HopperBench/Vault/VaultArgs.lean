import HopperBench.Solana.CommandLine
import HopperBench.Vault.VaultReport

/-!
# The arguments of the vault runner

Eight flags, each with a value.  The last value of a flag counts, paths are
resolved after all flags are read, and what is not given has its default.
-/

set_option autoImplicit false

namespace HopperBench.VaultArgs

open HopperBench.Solana HopperBench.Harness HopperBench.CommandLine HopperBench.VaultReport
open Flags (Owns Sets lastValue)
open RouteRun (RowFailure)

/-- The variables of the loop. -/
structure Settings (Path : Type) where
  hopperRoot : Option Path
  quasarRoot : Option Path
  anchorRoot : Option Path
  outDir : Option Path
  hopperId : Option Address
  pinocchioId : Option Address
  quasarId : Option Address
  anchorId : Option Address

def unset {Path : Type} : Settings Path := ⟨none, none, none, none, none, none, none, none⟩

section Parsing

variable (shell : Shell)

def flags : Flags.Table RowFailure (Settings shell.Path)
  | "--hopper-root" => some (pathFlag shell fun path settings =>
      { settings with hopperRoot := some path })
  | "--quasar-root" => some (pathFlag shell fun path settings =>
      { settings with quasarRoot := some path })
  | "--anchor-root" => some (pathFlag shell fun path settings =>
      { settings with anchorRoot := some path })
  | "--out-dir" => some (pathFlag shell fun path settings =>
      { settings with outDir := some path })
  | "--hopper-program-id" => some (idFlag shell "--hopper-program-id" fun id settings =>
      { settings with hopperId := some id })
  | "--pinocchio-program-id" => some (idFlag shell "--pinocchio-program-id" fun id settings =>
      { settings with pinocchioId := some id })
  | "--quasar-program-id" => some (idFlag shell "--quasar-program-id" fun id settings =>
      { settings with quasarId := some id })
  | "--anchor-program-id" => some (idFlag shell "--anchor-program-id" fun id settings =>
      { settings with anchorId := some id })
  | _ => none

def unknownArgument (arg : String) : RowFailure :=
  .failed ("unknown argument '" ++ arg ++ "'; expected [--hopper-root <path>] " ++
    "[--quasar-root <path>] [--anchor-root <path>] [--out-dir <path>] " ++
    "[--hopper-program-id <id>] [--pinocchio-program-id <id>] [--quasar-program-id <id>] " ++
    "[--anchor-program-id <id>]")

/-- After the loop, in the directory of the workspace. -/
def resolve (workspaceRoot : shell.Path) (settings : Settings shell.Path) :
    Except RowFailure (Args shell.Path) := do
  let hopperRoot ← canonicalizeOption shell settings.hopperRoot
  let quasarRoot ← canonicalizeOption shell settings.quasarRoot
  let anchorRoot ← canonicalizeOption shell settings.anchorRoot
  .ok
    { hopperRoot := hopperRoot.getD workspaceRoot
      quasarRoot
      anchorRoot
      outDir := outDirOf shell workspaceRoot "bench/results/framework-vaults" settings.outDir
      programIds := ⟨settings.hopperId, settings.pinocchioId, settings.quasarId,
        settings.anchorId⟩ }

def parseArgs (args : List String) : Except RowFailure (Args shell.Path) := do
  let settings ← Flags.read (flags shell) missingValue unknownArgument unset args
  let root ← workspaceRoot shell
  resolve shell root settings

end Parsing

section Changes

variable {shell : Shell}

inductive Change (shell : Shell) (value : String) (settings : Settings shell.Path) :
    String → Settings shell.Path → Prop where
  | hopperRoot : Change shell value settings "--hopper-root"
      { settings with hopperRoot := some (shell.fromText value) }
  | quasarRoot : Change shell value settings "--quasar-root"
      { settings with quasarRoot := some (shell.fromText value) }
  | anchorRoot : Change shell value settings "--anchor-root"
      { settings with anchorRoot := some (shell.fromText value) }
  | outDir : Change shell value settings "--out-dir"
      { settings with outDir := some (shell.fromText value) }
  | hopperId {id : Address} (decoded : shell.addressFromStr value = .ok id) :
      Change shell value settings "--hopper-program-id" { settings with hopperId := some id }
  | pinocchioId {id : Address} (decoded : shell.addressFromStr value = .ok id) :
      Change shell value settings "--pinocchio-program-id" { settings with pinocchioId := some id }
  | quasarId {id : Address} (decoded : shell.addressFromStr value = .ok id) :
      Change shell value settings "--quasar-program-id" { settings with quasarId := some id }
  | anchorId {id : Address} (decoded : shell.addressFromStr value = .ok id) :
      Change shell value settings "--anchor-program-id" { settings with anchorId := some id }

theorem change_of_taken {arg value : String} {settings next : Settings shell.Path}
    {set : String → Settings shell.Path → Except RowFailure (Settings shell.Path)}
    (known : flags shell arg = some set) (taken : set value settings = .ok next) :
    Change shell value settings arg next := by
  unfold flags at known
  split at known
  case h_1 =>
    cases known
    cases taken
    exact .hopperRoot
  case h_2 =>
    cases known
    cases taken
    exact .quasarRoot
  case h_3 =>
    cases known
    cases taken
    exact .anchorRoot
  case h_4 =>
    cases known
    cases taken
    exact .outDir
  case h_5 =>
    cases known
    obtain ⟨_, decoded, rfl⟩ := idFlag_eq_ok.mp taken
    exact .hopperId decoded
  case h_6 =>
    cases known
    obtain ⟨_, decoded, rfl⟩ := idFlag_eq_ok.mp taken
    exact .pinocchioId decoded
  case h_7 =>
    cases known
    obtain ⟨_, decoded, rfl⟩ := idFlag_eq_ok.mp taken
    exact .quasarId decoded
  case h_8 =>
    cases known
    obtain ⟨_, decoded, rfl⟩ := idFlag_eq_ok.mp taken
    exact .anchorId decoded
  case h_9 => cases known

def pathFlags : List String := ["--hopper-root", "--quasar-root", "--anchor-root", "--out-dir"]

def idFlags : List String :=
  ["--hopper-program-id", "--pinocchio-program-id", "--quasar-program-id", "--anchor-program-id"]

def pathOf {Path : Type} : String → Settings Path → Option Path
  | "--hopper-root" => Settings.hopperRoot
  | "--quasar-root" => Settings.quasarRoot
  | "--anchor-root" => Settings.anchorRoot
  | "--out-dir" => Settings.outDir
  | _ => fun _ => none

def idOf {Path : Type} : String → Settings Path → Option Address
  | "--hopper-program-id" => Settings.hopperId
  | "--pinocchio-program-id" => Settings.pinocchioId
  | "--quasar-program-id" => Settings.quasarId
  | "--anchor-program-id" => Settings.anchorId
  | _ => fun _ => none

/-- A flag leaves the fields of the other flags alone. -/
theorem kept_of_taken {arg value : String} {settings next : Settings shell.Path}
    {set : String → Settings shell.Path → Except RowFailure (Settings shell.Path)}
    (known : flags shell arg = some set) (taken : set value settings = .ok next) :
    (∀ flag ∈ pathFlags, arg ≠ flag → pathOf flag next = pathOf flag settings) ∧
      ∀ flag ∈ idFlags, arg ≠ flag → idOf flag next = idOf flag settings := by
  cases change_of_taken known taken <;> simp [pathFlags, idFlags, pathOf, idOf]

theorem owns_path (flag : String) (listed : flag ∈ pathFlags) : Owns (flags shell) flag
    (fun value => (.ok (shell.fromText value) : Except RowFailure shell.Path)) (pathOf flag) := by
  have keeps : ∀ arg set value settings next, arg ≠ flag → flags shell arg = some set →
      set value settings = .ok next → pathOf flag next = pathOf flag settings :=
    fun _ _ _ _ _ different known taken => (kept_of_taken known taken).1 flag listed different
  simp only [pathFlags, List.mem_cons, List.not_mem_nil, or_false] at listed
  rcases listed with rfl | rfl | rfl | rfl
  all_goals exact owns_pathFlag rfl (fun _ _ => rfl) keeps

theorem owns_id (flag : String) (listed : flag ∈ idFlags) :
    Owns (flags shell) flag shell.addressFromStr (idOf flag) := by
  have keeps : ∀ arg set value settings next, arg ≠ flag → flags shell arg = some set →
      set value settings = .ok next → idOf flag next = idOf flag settings :=
    fun _ _ _ _ _ different known taken => (kept_of_taken known taken).2 flag listed different
  simp only [idFlags, List.mem_cons, List.not_mem_nil, or_false] at listed
  rcases listed with rfl | rfl | rfl | rfl
  all_goals exact owns_idFlag rfl (fun _ _ => rfl) keeps

end Changes

/-! ## What a command line says -/

/-- A flag of the runner, with an address where it asks for one. -/
def WellFormed (shell : Shell) (pair : String × String) : Prop :=
  pair.1 ∈ pathFlags ∨ pair.1 ∈ idFlags ∧ ∃ id, shell.addressFromStr pair.2 = .ok id

/-- The arguments that the flags stand for. -/
structure Denotes (shell : Shell) (workspaceRoot : shell.Path) (pairs : List (String × String))
    (args : Args shell.Path) : Prop where
  hopperRoot : ∃ root, Resolves shell ((lastValue "--hopper-root" pairs).map shell.fromText) root ∧
    args.hopperRoot = root.getD workspaceRoot
  quasarRoot : Resolves shell ((lastValue "--quasar-root" pairs).map shell.fromText) args.quasarRoot
  anchorRoot : Resolves shell ((lastValue "--anchor-root" pairs).map shell.fromText) args.anchorRoot
  outDir : args.outDir = outDirOf shell workspaceRoot "bench/results/framework-vaults"
    ((lastValue "--out-dir" pairs).map shell.fromText)
  hopperId : Decodes shell (lastValue "--hopper-program-id" pairs) args.programIds.hopper
  pinocchioId : Decodes shell (lastValue "--pinocchio-program-id" pairs) args.programIds.pinocchio
  quasarId : Decodes shell (lastValue "--quasar-program-id" pairs) args.programIds.quasar
  anchorId : Decodes shell (lastValue "--anchor-program-id" pairs) args.programIds.anchor

/-- The flags of the roots, in the order in which they are resolved. -/
def rootFlags : List String := ["--hopper-root", "--quasar-root", "--anchor-root"]

def rootOf (shell : Shell) (pairs : List (String × String)) (flag : String) : Option shell.Path :=
  (lastValue flag pairs).map shell.fromText

/-- The first root given that does not resolve on the machine, with its error. -/
def Unresolved (shell : Shell) (pairs : List (String × String)) (e : RowFailure) : Prop :=
  ∃ early flag late path, rootFlags = early ++ flag :: late ∧
    (∀ before ∈ early, ∃ root, Resolves shell (rootOf shell pairs before) root) ∧
    rootOf shell pairs flag = some path ∧ canonicalizeExisting shell path = .error e

section Reading

variable {shell : Shell} {workspaceRoot : shell.Path} {pairs : List (String × String)}
  {settings : Settings shell.Path} {args : Args shell.Path} {e : RowFailure}

theorem wellFormed_of_sets {start : Settings shell.Path}
    (sets : Sets (flags shell) start pairs settings) : ∀ pair ∈ pairs, WellFormed shell pair := by
  refine sets.forall_mem (WellFormed shell) ?_
  intro arg value set before next known taken
  cases change_of_taken known taken with
  | hopperRoot => exact .inl (by simp [pathFlags])
  | quasarRoot => exact .inl (by simp [pathFlags])
  | anchorRoot => exact .inl (by simp [pathFlags])
  | outDir => exact .inl (by simp [pathFlags])
  | hopperId decoded => exact .inr ⟨by simp [idFlags], _, decoded⟩
  | pinocchioId decoded => exact .inr ⟨by simp [idFlags], _, decoded⟩
  | quasarId decoded => exact .inr ⟨by simp [idFlags], _, decoded⟩
  | anchorId decoded => exact .inr ⟨by simp [idFlags], _, decoded⟩

theorem takes_of_wellFormed {pair : String × String} (wellFormed : WellFormed shell pair) :
    Flags.Takes (flags shell) pair := by
  obtain ⟨flag, value⟩ := pair
  rcases wellFormed with path | ⟨program, id, decoded⟩
  · simp only [pathFlags, List.mem_cons, List.not_mem_nil, or_false] at path
    rcases path with rfl | rfl | rfl | rfl
    all_goals exact ⟨_, rfl, fun _ => ⟨_, rfl⟩⟩
  · simp only [idFlags, List.mem_cons, List.not_mem_nil, or_false] at program
    rcases program with rfl | rfl | rfl | rfl
    all_goals exact ⟨_, rfl, fun _ => ⟨_, idFlag_eq_ok.mpr ⟨id, decoded, rfl⟩⟩⟩

theorem sets_of_wellFormed (wellFormed : ∀ pair ∈ pairs, WellFormed shell pair) :
    ∃ settings, Sets (flags shell) unset pairs settings :=
  Flags.exists_sets (fun pair member => takes_of_wellFormed (wellFormed pair member)) unset

theorem resolve_eq_ok :
    resolve shell workspaceRoot settings = .ok args ↔
      ∃ root, Resolves shell settings.hopperRoot root ∧
        Resolves shell settings.quasarRoot args.quasarRoot ∧
        Resolves shell settings.anchorRoot args.anchorRoot ∧
        args = ⟨root.getD workspaceRoot, args.quasarRoot, args.anchorRoot,
          outDirOf shell workspaceRoot "bench/results/framework-vaults" settings.outDir,
          ⟨settings.hopperId, settings.pinocchioId, settings.quasarId, settings.anchorId⟩⟩ := by
  simp only [resolve, Sweep.bind_eq_ok, canonicalizeOption_eq_ok, Except.ok.injEq]
  constructor
  · intro given
    obtain ⟨root, hopper, _, quasar, _, anchor, rfl⟩ := given
    exact ⟨root, hopper, quasar, anchor, rfl⟩
  · intro given
    obtain ⟨root, hopper, quasar, anchor, built⟩ := given
    exact ⟨root, hopper, _, quasar, _, anchor, built.symm⟩

/-! What the settings are after the loop. -/

theorem sets_root (sets : Sets (flags shell) unset pairs settings) (flag : String)
    (listed : flag ∈ pathFlags) : pathOf flag settings = rootOf shell pairs flag := by
  refine (owns_path flag listed).read_map sets ?_
  simp only [pathFlags, List.mem_cons, List.not_mem_nil, or_false] at listed
  rcases listed with rfl | rfl | rfl | rfl <;> rfl

theorem sets_id (sets : Sets (flags shell) unset pairs settings) (flag : String)
    (listed : flag ∈ idFlags) : Decodes shell (lastValue flag pairs) (idOf flag settings) := by
  refine decodes_of_owns (owns_id flag listed) sets ?_
  simp only [idFlags, List.mem_cons, List.not_mem_nil, or_false] at listed
  rcases listed with rfl | rfl | rfl | rfl <;> rfl

theorem resolves_iff_denotes (sets : Sets (flags shell) unset pairs settings) :
    resolve shell workspaceRoot settings = .ok args ↔ Denotes shell workspaceRoot pairs args := by
  have hopperRoot := sets_root sets "--hopper-root" (by simp [pathFlags])
  have quasarRoot := sets_root sets "--quasar-root" (by simp [pathFlags])
  have anchorRoot := sets_root sets "--anchor-root" (by simp [pathFlags])
  have outDir := sets_root sets "--out-dir" (by simp [pathFlags])
  have hopperId := sets_id sets "--hopper-program-id" (by simp [idFlags])
  have pinocchioId := sets_id sets "--pinocchio-program-id" (by simp [idFlags])
  have quasarId := sets_id sets "--quasar-program-id" (by simp [idFlags])
  have anchorId := sets_id sets "--anchor-program-id" (by simp [idFlags])
  simp only [pathOf, rootOf] at hopperRoot quasarRoot anchorRoot outDir
  simp only [idOf] at hopperId pinocchioId quasarId anchorId
  rw [resolve_eq_ok, hopperRoot, quasarRoot, anchorRoot, outDir]
  constructor
  · intro given
    obtain ⟨root, hopper, quasar, anchor, built⟩ := given
    rw [built]
    exact ⟨⟨root, hopper, rfl⟩, quasar, anchor, rfl, hopperId, pinocchioId, quasarId, anchorId⟩
  · intro denotes
    obtain ⟨⟨root, hopper, rootExact⟩, quasar, anchor, out, hopperGiven, pinocchioGiven,
      quasarGiven, anchorGiven⟩ := denotes
    refine ⟨root, hopper, quasar, anchor, ?_⟩
    rw [hopperId.unique hopperGiven, pinocchioId.unique pinocchioGiven,
      quasarId.unique quasarGiven, anchorId.unique anchorGiven, ← rootExact, ← out]

theorem unresolved_iff (sets : Sets (flags shell) unset pairs settings) :
    resolve shell workspaceRoot settings = .error e ↔ Unresolved shell pairs e := by
  have inOrder : resolve shell workspaceRoot settings = .error e ↔
      rootFlags.mapM (fun flag => canonicalizeOption shell (rootOf shell pairs flag)) =
        .error e := by
    have hopperRoot := sets_root sets "--hopper-root" (by simp [pathFlags])
    have quasarRoot := sets_root sets "--quasar-root" (by simp [pathFlags])
    have anchorRoot := sets_root sets "--anchor-root" (by simp [pathFlags])
    simp only [pathOf] at hopperRoot quasarRoot anchorRoot
    simp only [resolve, rootFlags, List.mapM_cons, List.mapM_nil, Sweep.bind_eq_error, hopperRoot,
      quasarRoot, anchorRoot, pure, Except.pure, reduceCtorEq, and_false, exists_false, or_false]
  rw [inOrder, Sweep.mapM_eq_error]
  simp only [canonicalizeOption_eq_error]
  constructor
  · intro stopped
    obtain ⟨early, flag, late, roots, listed, measured, path, given, fails⟩ := stopped
    have resolved := Sweep.exists_measured.mp ⟨roots, measured⟩
    simp only [canonicalizeOption_eq_ok] at resolved
    exact ⟨early, flag, late, path, listed, resolved, given, fails⟩
  · intro unresolved
    obtain ⟨early, flag, late, path, listed, resolved, given, fails⟩ := unresolved
    simp only [← canonicalizeOption_eq_ok] at resolved
    obtain ⟨roots, measured⟩ := Sweep.exists_measured.mpr resolved
    exact ⟨early, flag, late, roots, listed, measured, path, given, fails⟩

end Reading

/-- Reading the arguments is exact.  They are accepted when they are flags of the
runner with values, every program id is an address, the workspace has a root and the
last path of every root resolves, and then they mean the last value of each flag.
Otherwise they fail at the first word or value that is not so, or at the first root. -/
theorem vault_args_exact (shell : Shell) (words : List String) :
    (∀ args, parseArgs shell words = .ok args ↔
      ∃ pairs root, words = Flags.words pairs ∧ (∀ pair ∈ pairs, WellFormed shell pair) ∧
        shell.parent shell.manifestDir = some root ∧ Denotes shell root pairs args) ∧
    ∀ e, parseArgs shell words = .error e ↔
      (∃ pairs settings rest, words = Flags.words pairs ++ rest ∧
        Sets (flags shell) unset pairs settings ∧
        Flags.Stuck (flags shell) missingValue unknownArgument settings rest e) ∨
      ∃ pairs, words = Flags.words pairs ∧ (∀ pair ∈ pairs, WellFormed shell pair) ∧
        (workspaceRoot shell = .error e ∨
          (∃ root, shell.parent shell.manifestDir = some root) ∧ Unresolved shell pairs e) := by
  constructor
  · intro args
    simp only [parseArgs, Sweep.bind_eq_ok, workspaceRoot_eq_ok]
    constructor
    · intro given
      obtain ⟨settings, read, root, found, resolved⟩ := given
      obtain ⟨pairs, split, sets⟩ := Flags.read_eq_ok.mp read
      exact ⟨pairs, root, split, wellFormed_of_sets sets, found,
        (resolves_iff_denotes sets).mp resolved⟩
    · intro given
      obtain ⟨pairs, root, split, wellFormed, found, denotes⟩ := given
      obtain ⟨settings, sets⟩ := sets_of_wellFormed wellFormed
      exact ⟨settings, Flags.read_eq_ok.mpr ⟨pairs, split, sets⟩, root, found,
        (resolves_iff_denotes sets).mpr denotes⟩
  · intro e
    simp only [parseArgs, Sweep.bind_eq_error, Flags.read_eq_error, Flags.read_eq_ok,
      workspaceRoot_eq_ok]
    constructor
    · intro failed
      rcases failed with stuck | ⟨settings, ⟨pairs, split, sets⟩, stopped⟩
      · exact .inl stuck
      · refine .inr ⟨pairs, split, wellFormed_of_sets sets, stopped.imp_right ?_⟩
        rintro ⟨root, found, unresolved⟩
        exact ⟨⟨root, found⟩, (unresolved_iff sets).mp unresolved⟩
    · intro failed
      rcases failed with stuck | ⟨pairs, split, wellFormed, stopped⟩
      · exact .inl stuck
      · obtain ⟨settings, sets⟩ := sets_of_wellFormed wellFormed
        refine .inr ⟨settings, ⟨pairs, split, sets⟩, stopped.imp_right ?_⟩
        rintro ⟨⟨root, found⟩, unresolved⟩
        exact ⟨root, found, (unresolved_iff sets).mpr unresolved⟩

end HopperBench.VaultArgs
