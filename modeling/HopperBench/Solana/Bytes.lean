import HopperBench.Library.LittleEndian
import HopperBench.Solana.Runtime

/-!
# Reading words out of instruction data

`u32At` and `u64At` are `uN::from_le_bytes([data[i], data[i + 1], ..])`: every
index is bound-checked on its own.  Consecutive indices inside the data read
the word that `drop` and `take` cut out.
-/

set_option autoImplicit false

namespace HopperBench.Solana

open LittleEndian

/-- `[xs[i], xs[j], ..]` -/
def elementsAt {A : Type} (xs : List A) (offsets : List Nat) : Except Abort (List A) :=
  offsets.mapM (index xs)

def u32At (data : List UInt8) (offsets : List Nat) : Except Abort UInt32 := do
  let bytes ← elementsAt data offsets
  return u32OfBytes bytes

def u64At (data : List UInt8) (offsets : List Nat) : Except Abort UInt64 := do
  let bytes ← elementsAt data offsets
  return u64OfBytes bytes

/-- `&xs[start..]` -/
def sliceFrom {A : Type} (xs : List A) (start : Nat) : Except Abort (List A) :=
  if start ≤ xs.length then .ok (xs.drop start) else .error .indexOutOfRange

theorem elementsAt_range {A : Type} (xs : List A) : ∀ (count start : Nat),
    start + count ≤ xs.length → start + count < 2 ^ 64 →
    elementsAt xs (List.range' start count) = .ok ((xs.drop start).take count) := by
  intro count
  induction count with
  | zero => intro start _ _; simp [elementsAt, pure, Except.pure]
  | succ count ih =>
      intro start inside small
      have headInside : start < xs.length := by omega
      have rest := ih (start + 1) (by omega) (by omega)
      have head : index xs start = .ok xs[start] := index_of_lt (by omega) headInside
      simp only [elementsAt] at rest ⊢
      rw [List.range'_succ, List.mapM_cons, head, rest, List.drop_eq_getElem_cons headInside]
      rfl

theorem u32At_range (data : List UInt8) (start : Nat) (inside : start + 4 ≤ data.length)
    (small : start + 4 < 2 ^ 64) :
    u32At data [start, start + 1, start + 2, start + 3] =
      .ok (u32OfBytes ((data.drop start).take 4)) := by
  have read := elementsAt_range data 4 start inside small
  have offsets : [start, start + 1, start + 2, start + 3] = List.range' start 4 := rfl
  rw [u32At, offsets, read]
  rfl

theorem u64At_range (data : List UInt8) (start : Nat) (inside : start + 8 ≤ data.length)
    (small : start + 8 < 2 ^ 64) :
    u64At data [start, start + 1, start + 2, start + 3, start + 4, start + 5, start + 6,
      start + 7] = .ok (u64OfBytes ((data.drop start).take 8)) := by
  have read := elementsAt_range data 8 start inside small
  have offsets : [start, start + 1, start + 2, start + 3, start + 4, start + 5, start + 6,
      start + 7] = List.range' start 8 := rfl
  rw [u64At, offsets, read]
  rfl

theorem sliceFrom_of_le {A : Type} {xs : List A} {start : Nat} (inside : start ≤ xs.length) :
    sliceFrom xs start = .ok (xs.drop start) := if_pos inside

end HopperBench.Solana
