import Mathlib.Algebra.Order.Ring.Nat

/-!
# Unsigned integers as decimal text

`parse bound` reads an unsigned decimal integer below `bound` the way Rust's
`str::parse` does: an empty text, a lone sign and every character that is not a
digit are refused, one `+` in front is allowed, and the value is checked against
the bound digit by digit.  What it accepts is exactly the digit strings whose
value is below the bound, so a printed number is read back.
-/

set_option autoImplicit false

namespace DecimalText

inductive ParseError where
  | empty
  | invalidDigit
  | posOverflow
deriving DecidableEq

def ParseError.message : ParseError → String
  | empty => "cannot parse integer from empty string"
  | invalidDigit => "invalid digit found in string"
  | posOverflow => "number too large to fit in target type"

def digit (c : Char) : Option Nat :=
  if c.isDigit = true then some (c.toNat - '0'.toNat) else none

def digitsFrom (bound : Nat) : Nat → List Char → Except ParseError Nat
  | value, [] => .ok value
  | value, c :: rest =>
      match digit c with
      | none => .error .invalidDigit
      | some d => if 10 * value + d < bound then digitsFrom bound (10 * value + d) rest
          else .error .posOverflow

def parse (bound : Nat) (text : List Char) : Except ParseError Nat :=
  match text with
  | [] => .error .empty
  | ['+'] => .error .invalidDigit
  | ['-'] => .error .invalidDigit
  | '+' :: rest => digitsFrom bound 0 rest
  | digits => digitsFrom bound 0 digits

/-- The digit strings, with their value below the bound. -/
structure Denotes (bound : Nat) (digits : List Char) (n : Nat) : Prop where
  nonempty : digits ≠ []
  onlyDigits : ∀ c ∈ digits, c.isDigit = true
  value : Nat.ofDigitChars 10 digits 0 = n
  below : n < bound

theorem le_ofDigitChars : ∀ (digits : List Char) (value : Nat),
    value ≤ Nat.ofDigitChars 10 digits value := by
  intro digits
  induction digits with
  | nil => intro value; simp
  | cons c rest ih =>
      intro value
      rw [Nat.ofDigitChars_cons]
      have grown := ih (10 * value + (c.toNat - '0'.toNat))
      omega

theorem digitsFrom_eq_ok {bound : Nat} : ∀ (digits : List Char) (value n : Nat), value < bound →
    (digitsFrom bound value digits = .ok n ↔
      (∀ c ∈ digits, c.isDigit = true) ∧ Nat.ofDigitChars 10 digits value = n ∧ n < bound) := by
  intro digits
  induction digits with
  | nil =>
      intro value n small
      simp only [digitsFrom, Nat.ofDigitChars_nil, Except.ok.injEq, List.not_mem_nil]
      constructor
      · rintro rfl
        exact ⟨fun _ impossible => impossible.elim, rfl, small⟩
      · intro given
        obtain ⟨_, same, _⟩ := given
        exact same
  | cons c rest ih =>
      intro value n small
      rw [Nat.ofDigitChars_cons, List.forall_mem_cons]
      by_cases isDigit : c.isDigit = true
      · have read : digit c = some (c.toNat - '0'.toNat) := if_pos isDigit
        simp only [digitsFrom, read]
        by_cases fits : 10 * value + (c.toNat - '0'.toNat) < bound
        · rw [if_pos fits, ih _ n fits, and_iff_right isDigit]
        · -- the value only grows, so no later digit brings it back below the bound
          have grown := le_ofDigitChars rest (10 * value + (c.toNat - '0'.toNat))
          rw [if_neg fits]
          constructor
          · intro impossible
            cases impossible
          · intro given
            obtain ⟨_, rfl, below⟩ := given
            omega
      · have unread : digit c = none := if_neg isDigit
        simp only [digitsFrom, unread]
        constructor
        · intro impossible
          cases impossible
        · intro given
          obtain ⟨⟨isDigit', _⟩, _⟩ := given
          exact absurd isDigit' isDigit

theorem digitsFrom_eq_ok_iff {bound n : Nat} {digits : List Char} (positive : 0 < bound)
    (nonempty : digits ≠ []) : digitsFrom bound 0 digits = .ok n ↔ Denotes bound digits n := by
  rw [digitsFrom_eq_ok digits 0 n positive]
  constructor
  · intro given
    obtain ⟨onlyDigits, value, below⟩ := given
    exact ⟨nonempty, onlyDigits, value, below⟩
  · intro given
    obtain ⟨_, onlyDigits, value, below⟩ := given
    exact ⟨onlyDigits, value, below⟩

theorem Denotes.head_digit {bound n : Nat} {c : Char} {rest : List Char}
    (denotes : Denotes bound (c :: rest) n) : c.isDigit = true :=
  denotes.onlyDigits c List.mem_cons_self

theorem parse_eq_ok {bound : Nat} {text : List Char} {n : Nat} (positive : 0 < bound) :
    parse bound text = .ok n ↔ Denotes bound text n ∨ ∃ digits, text = '+' :: digits ∧
      Denotes bound digits n := by
  have plus : ∀ rest, ¬Denotes bound ('+' :: rest) n := fun rest denotes =>
    absurd denotes.head_digit (by decide)
  unfold parse
  split
  case h_1 =>
    constructor
    · intro impossible
      cases impossible
    · intro either
      rcases either with denotes | ⟨_, impossible, _⟩
      · exact absurd rfl denotes.nonempty
      · cases impossible
  case h_2 =>
    constructor
    · intro impossible
      cases impossible
    · intro either
      rcases either with denotes | ⟨_, same, denotes⟩
      · exact absurd denotes (plus [])
      · cases same
        exact absurd rfl denotes.nonempty
  case h_3 =>
    constructor
    · intro impossible
      cases impossible
    · intro either
      rcases either with denotes | ⟨_, impossible, _⟩
      · exact absurd denotes.head_digit (by decide)
      · cases impossible
  case h_4 rest notAlone =>
    rw [digitsFrom_eq_ok_iff positive notAlone]
    constructor
    · intro denotes
      exact .inr ⟨rest, rfl, denotes⟩
    · intro either
      rcases either with denotes | ⟨_, same, denotes⟩
      · exact absurd denotes (plus rest)
      · cases same
        exact denotes
  case h_5 notEmpty _ _ notSigned =>
    rw [digitsFrom_eq_ok_iff positive notEmpty]
    constructor
    · exact .inl
    · intro either
      rcases either with denotes | ⟨digits, signed, _⟩
      · exact denotes
      · exact absurd signed (notSigned digits)

theorem parse_toDigits {bound n : Nat} (below : n < bound) :
    parse bound (Nat.toDigits 10 n) = .ok n := by
  rw [parse_eq_ok (Nat.zero_lt_of_lt below)]
  refine .inl ⟨Nat.toDigits_ne_nil, ?_, Nat.ofDigitChars_ten_toDigits, below⟩
  intro c member
  exact Nat.isDigit_of_mem_toDigits (by decide) (by decide) member

end DecimalText
