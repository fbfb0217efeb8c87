import HopperBench.Library.Sweep

/-!
# Flags with values

A command line is read two words at a time: a flag and its value.  What each
flag does with its value is a table over the flag's text.  The reading is exact:
a command line is accepted when it is a sequence of flags with values, each of
which the table takes, and it fails at the first word or value that is not.
Where every flag sets a field of its own, the last value of a flag counts.
-/

set_option autoImplicit false

namespace Flags

open Sweep

variable {E F S A : Type}

abbrev Table (E S : Type) := String → Option (String → S → Except E S)

section Reading

variable (table : Table E S) (missing unknown : String → E)

def read : S → List String → Except E S
  | settings, [] => .ok settings
  | settings, arg :: rest =>
      match table arg with
      | none => .error (unknown arg)
      | some set =>
          match rest with
          | [] => .error (missing arg)
          | value :: others => do
              let next ← set value settings
              read next others

/-- The flags with their values take `settings` to `final`. -/
inductive Sets : S → List (String × String) → S → Prop where
  | done (settings : S) : Sets settings [] settings
  | more {settings next final : S} {arg value : String} {set : String → S → Except E S}
      {rest : List (String × String)} (known : table arg = some set)
      (taken : set value settings = .ok next) (later : Sets next rest final) :
      Sets settings ((arg, value) :: rest) final

def words (pairs : List (String × String)) : List String :=
  pairs.flatMap fun pair => [pair.1, pair.2]

/-- Why reading stops in front of `rest`. -/
inductive Stuck (settings : S) : List String → E → Prop where
  | unknown {arg : String} {rest : List String} (absent : table arg = none) :
      Stuck settings (arg :: rest) (unknown arg)
  | missing {arg : String} {set : String → S → Except E S} (known : table arg = some set) :
      Stuck settings [arg] (missing arg)
  | refused {arg value : String} {rest : List String} {set : String → S → Except E S} {e : E}
      (known : table arg = some set) (fails : set value settings = .error e) :
      Stuck settings (arg :: value :: rest) e

end Reading

section Exactness

variable {table : Table E S} {missing unknown : String → E} {settings final : S}

theorem words_cons (arg value : String) (rest : List (String × String)) :
    words ((arg, value) :: rest) = arg :: value :: words rest := rfl

theorem Sets.read_append {pairs : List (String × String)} (sets : Sets table settings pairs final)
    (rest : List String) :
    read table missing unknown settings (words pairs ++ rest) =
      read table missing unknown final rest := by
  induction sets with
  | done settings => rfl
  | @more settings next final arg value set later known taken _ ih =>
      rw [words_cons, List.cons_append, List.cons_append, read, known]
      simp only [taken]
      exact ih

theorem Sets.read_words {pairs : List (String × String)} (sets : Sets table settings pairs final) :
    read table missing unknown settings (words pairs) = .ok final := by
  rw [← List.append_nil (words pairs), sets.read_append]
  rfl

theorem Stuck.read_eq {rest : List String} {e : E}
    (stuck : Stuck table missing unknown settings rest e) :
    read table missing unknown settings rest = .error e := by
  cases stuck with
  | unknown absent => rw [read, absent]
  | missing known => rw [read, known]
  | refused known fails =>
      rw [read, known]
      simp only [fails]
      rfl

theorem read_cases : ∀ (n : Nat) (args : List String), args.length ≤ n → ∀ settings : S,
    (∃ pairs final, args = words pairs ∧ Sets table settings pairs final) ∨
      ∃ pairs final rest e, args = words pairs ++ rest ∧ Sets table settings pairs final ∧
        Stuck table missing unknown final rest e := by
  intro n
  induction n with
  | zero =>
      intro args short settings
      cases args with
      | nil => exact .inl ⟨[], settings, rfl, .done settings⟩
      | cons arg rest => simp at short
  | succ n ih =>
      intro args short settings
      match args with
      | [] => exact .inl ⟨[], settings, rfl, .done settings⟩
      | arg :: rest =>
          cases known : table arg with
          | none => exact .inr ⟨[], settings, _, _, rfl, .done settings, .unknown known⟩
          | some set =>
              match rest with
              | [] => exact .inr ⟨[], settings, _, _, rfl, .done settings, .missing known⟩
              | value :: others =>
                  cases taken : set value settings with
                  | error e =>
                      exact .inr ⟨[], settings, _, _, rfl, .done settings, .refused known taken⟩
                  | ok next =>
                      have shorter : others.length ≤ n := by
                        simp only [List.length_cons] at short
                        omega
                      rcases ih others shorter next with read | stopped
                      · obtain ⟨pairs, final, rfl, sets⟩ := read
                        exact .inl ⟨(arg, value) :: pairs, final, rfl, .more known taken sets⟩
                      · obtain ⟨pairs, final, rest, e, rfl, sets, stuck⟩ := stopped
                        exact .inr ⟨(arg, value) :: pairs, final, rest, e, rfl,
                          .more known taken sets, stuck⟩

theorem read_eq_ok {args : List String} :
    read table missing unknown settings args = .ok final ↔
      ∃ pairs, args = words pairs ∧ Sets table settings pairs final := by
  constructor
  · intro ok
    rcases read_cases args.length args le_rfl settings with accepted | stopped
    · obtain ⟨pairs, reached, rfl, sets⟩ := accepted
      rw [sets.read_words] at ok
      cases ok
      exact ⟨pairs, rfl, sets⟩
    · obtain ⟨pairs, reached, rest, e, rfl, sets, stuck⟩ := stopped
      rw [sets.read_append, stuck.read_eq] at ok
      cases ok
  · intro given
    obtain ⟨pairs, rfl, sets⟩ := given
    exact sets.read_words

theorem read_eq_error {args : List String} {e : E} :
    read table missing unknown settings args = .error e ↔
      ∃ pairs reached rest, args = words pairs ++ rest ∧ Sets table settings pairs reached ∧
        Stuck table missing unknown reached rest e := by
  constructor
  · intro failed
    rcases read_cases args.length args le_rfl settings with accepted | stopped
    · obtain ⟨pairs, reached, rfl, sets⟩ := accepted
      rw [sets.read_words] at failed
      cases failed
    · obtain ⟨pairs, reached, rest, e', rfl, sets, stuck⟩ := stopped
      rw [sets.read_append, stuck.read_eq] at failed
      cases failed
      exact ⟨pairs, reached, rest, rfl, sets, stuck⟩
  · intro given
    obtain ⟨pairs, reached, rest, rfl, sets, stuck⟩ := given
    rw [sets.read_append, stuck.read_eq]

end Exactness

section Taken

variable {table : Table E S}

def Takes (table : Table E S) (pair : String × String) : Prop :=
  ∃ set, table pair.1 = some set ∧ ∀ settings, ∃ next, set pair.2 settings = .ok next

theorem exists_sets {pairs : List (String × String)} (takes : ∀ pair ∈ pairs, Takes table pair) :
    ∀ settings, ∃ final, Sets table settings pairs final := by
  induction pairs with
  | nil => exact fun settings => ⟨settings, .done settings⟩
  | cons pair rest ih =>
      intro settings
      obtain ⟨set, known, taken⟩ := takes pair List.mem_cons_self
      obtain ⟨next, stored⟩ := taken settings
      obtain ⟨final, later⟩ := ih (fun other member =>
        takes other (List.mem_cons_of_mem pair member)) next
      exact ⟨final, .more known stored later⟩

theorem Sets.forall_mem {settings final : S} {pairs : List (String × String)}
    (sets : Sets table settings pairs final) (holds : String × String → Prop)
    (each : ∀ arg value set settings next, table arg = some set → set value settings = .ok next →
      holds (arg, value)) : ∀ pair ∈ pairs, holds pair := by
  induction sets with
  | done settings => simp
  | more known taken _ ih => exact List.forall_mem_cons.mpr ⟨each _ _ _ _ _ known taken, ih⟩

end Taken

def lastValue (flag : String) : List (String × String) → Option String
  | [] => none
  | (arg, value) :: rest =>
      match lastValue flag rest with
      | some later => some later
      | none => if arg = flag then some value else none

/-- `get` reads the field that `flag` alone sets, to what its value decodes to. -/
structure Owns (table : Table E S) (flag : String) (decode : String → Except F A)
    (get : S → Option A) : Prop where
  own : ∀ set value settings next, table flag = some set → set value settings = .ok next →
    ∃ a, decode value = .ok a ∧ get next = some a
  other : ∀ arg set value settings next, arg ≠ flag → table arg = some set →
    set value settings = .ok next → get next = get settings

/-- The field holds what the last value of its flag decodes to. -/
theorem Owns.read {table : Table E S} {flag : String} {decode : String → Except F A}
    {get : S → Option A} (owns : Owns table flag decode get) {settings final : S}
    {pairs : List (String × String)} (sets : Sets table settings pairs final) :
    match lastValue flag pairs with
    | some value => ∃ a, decode value = .ok a ∧ get final = some a
    | none => get final = get settings := by
  induction sets with
  | done settings => rfl
  | @more settings next final arg value set rest known taken _ ih =>
      rw [lastValue]
      cases later : lastValue flag rest with
      | some last =>
          rw [later] at ih
          exact ih
      | none =>
          rw [later] at ih
          by_cases same : arg = flag
          · subst same
            obtain ⟨a, decoded, stored⟩ := owns.own set value settings next known taken
            simp only [if_true]
            exact ⟨a, decoded, ih.trans stored⟩
          · simp only [if_neg same]
            exact ih.trans (owns.other arg set value settings next same known taken)

theorem Owns.read_map {table : Table E S} {flag : String} {f : String → A} {get : S → Option A}
    (owns : Owns table flag (fun value => (.ok (f value) : Except E A)) get) {settings final : S}
    {pairs : List (String × String)} (sets : Sets table settings pairs final)
    (unset : get settings = none) : get final = (lastValue flag pairs).map f := by
  have holds := owns.read sets
  cases last : lastValue flag pairs with
  | none =>
      rw [last] at holds
      exact holds.trans unset
  | some value =>
      rw [last] at holds
      obtain ⟨a, decoded, stored⟩ := holds
      cases decoded
      exact stored

end Flags
