import HopperBench.Library.LittleEndian

/-!
# A 64-bit field inside a byte list

`wordAt offset` reads the little-endian word in the eight bytes at `offset` and
`setWordAt offset` replaces it.  A write is read back, leaves the length and
every byte outside its eight alone, and commutes with a header in front.
-/

set_option autoImplicit false

namespace WordField

open LittleEndian

def wordAt (offset : Nat) (bytes : List UInt8) : UInt64 :=
  u64OfBytes ((bytes.drop offset).take 8)

def setWordAt (offset : Nat) (word : UInt64) (bytes : List UInt8) : List UInt8 :=
  bytes.take offset ++ List.ofFn (u64Bytes word) ++ bytes.drop (offset + 8)

section Field

variable {offset : Nat} {word : UInt64} {bytes : List UInt8}

theorem length_setWordAt (inside : offset + 8 ≤ bytes.length) :
    (setWordAt offset word bytes).length = bytes.length := by
  simp only [setWordAt, List.length_append, List.length_take, List.length_drop, List.length_ofFn]
  omega

theorem take_setWordAt (inside : offset + 8 ≤ bytes.length) :
    (setWordAt offset word bytes).take offset = bytes.take offset := by
  have front : (bytes.take offset).length = offset := by
    rw [List.length_take]
    omega
  rw [setWordAt, List.append_assoc]
  exact List.take_left' front

theorem drop_setWordAt (inside : offset + 8 ≤ bytes.length) :
    (setWordAt offset word bytes).drop (offset + 8) = bytes.drop (offset + 8) := by
  have front : (bytes.take offset ++ List.ofFn (u64Bytes word)).length = offset + 8 := by
    rw [List.length_append, List.length_take, List.length_ofFn]
    omega
  rw [setWordAt]
  exact List.drop_left' front

theorem wordAt_setWordAt (inside : offset + 8 ≤ bytes.length) :
    wordAt offset (setWordAt offset word bytes) = word := by
  have front : (bytes.take offset).length = offset := by
    rw [List.length_take]
    omega
  rw [wordAt, setWordAt, List.append_assoc, List.drop_left' front, List.take_left' (by simp),
    u64OfBytes_u64Bytes]

theorem wordAt_setWordAt_before {other : Nat} (inside : offset + 8 ≤ bytes.length)
    (before : other + 8 ≤ offset) :
    wordAt other (setWordAt offset word bytes) = wordAt other bytes := by
  have cut : ∀ xs : List UInt8, (xs.drop other).take 8 = ((xs.take offset).drop other).take 8 := by
    intro xs
    rw [List.drop_take, List.take_take, Nat.min_eq_left (by omega)]
  rw [wordAt, cut, take_setWordAt inside, ← cut, wordAt]

theorem wordAt_setWordAt_after {other : Nat} (inside : offset + 8 ≤ bytes.length)
    (after : offset + 8 ≤ other) :
    wordAt other (setWordAt offset word bytes) = wordAt other bytes := by
  have cut : ∀ xs : List UInt8,
      xs.drop other = (xs.drop (offset + 8)).drop (other - (offset + 8)) := by
    intro xs
    rw [List.drop_drop, Nat.add_sub_cancel' after]
  rw [wordAt, cut, drop_setWordAt inside, ← cut, wordAt]

theorem wordAt_append {header : List UInt8} {size : Nat} (sized : header.length = size) :
    wordAt (size + offset) (header ++ bytes) = wordAt offset bytes := by
  rw [wordAt, ← List.drop_drop, List.drop_left' sized, wordAt]

theorem setWordAt_append {header : List UInt8} {size : Nat} (sized : header.length = size) :
    setWordAt (size + offset) word (header ++ bytes) = header ++ setWordAt offset word bytes := by
  rw [setWordAt, ← sized, List.take_length_add_append, Nat.add_assoc, ← List.drop_drop,
    List.drop_left, setWordAt]
  simp only [List.append_assoc]

end Field

end WordField
