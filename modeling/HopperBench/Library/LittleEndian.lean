import Mathlib.Data.List.OfFn
import Mathlib.Algebra.Order.Ring.Nat
import Mathlib.Tactic.Ring

/-!
# Little-endian byte arrays

`leByte n i` is the `i`-th byte of a natural number, `encode w n` its `w` low
bytes and `decode` the number a byte list stands for.  Encoding to `w` bytes
and decoding `w` bytes are inverse to each other below `256 ^ w`.  The word
sections carry this to 32-bit and 64-bit words.
-/

set_option autoImplicit false

namespace LittleEndian

def leByte (n i : Nat) : UInt8 := UInt8.ofNat (n / 256 ^ i)

def encode (w n : Nat) : List UInt8 := List.ofFn fun i : Fin w => leByte n i

def decode : List UInt8 → Nat
  | [] => 0
  | b :: rest => b.toNat + 256 * decode rest

theorem leByte_succ (n i : Nat) : leByte n (i + 1) = leByte (n / 256) i := by
  simp only [leByte, pow_succ']
  rw [Nat.div_div_eq_div_mul]

theorem encode_succ (w n : Nat) :
    encode (w + 1) n = UInt8.ofNat n :: encode w (n / 256) := by
  simp only [encode, List.ofFn_succ, Fin.val_zero, Fin.val_succ, leByte_succ]
  simp [leByte]

theorem decode_encode (w n : Nat) : decode (encode w n) = n % 256 ^ w := by
  induction w generalizing n with
  | zero => simp [encode, decode, Nat.mod_one]
  | succ w ih =>
      have low : (UInt8.ofNat n).toNat = n % 256 := UInt8.toNat_ofNat'
      rw [encode_succ, decode, ih, low, pow_succ' 256 w, Nat.mod_mul]

theorem decode_lt (bytes : List UInt8) : decode bytes < 256 ^ bytes.length := by
  induction bytes with
  | nil => simp [decode]
  | cons b rest ih =>
      have byteBound : b.toNat < 256 := b.toNat_lt
      rw [decode, List.length_cons, pow_succ]
      omega

theorem encode_decode (bytes : List UInt8) : encode bytes.length (decode bytes) = bytes := by
  induction bytes with
  | nil => simp [encode]
  | cons b rest ih =>
      have byteBound : b.toNat < 256 := b.toNat_lt
      have quotient : (b.toNat + 256 * decode rest) / 256 = decode rest := by omega
      have low : UInt8.ofNat (b.toNat + 256 * decode rest) = b := by
        apply UInt8.toNat_inj.mp
        rw [UInt8.toNat_ofNat']
        omega
      rw [List.length_cons, encode_succ, decode, quotient, ih, low]

/-! ## Words -/

def u32Bytes (x : UInt32) : Fin 4 → UInt8 := fun i => leByte x.toNat i

def u64Bytes (x : UInt64) : Fin 8 → UInt8 := fun i => leByte x.toNat i

def u32OfBytes (bytes : List UInt8) : UInt32 := UInt32.ofNat (decode bytes)

def u64OfBytes (bytes : List UInt8) : UInt64 := UInt64.ofNat (decode bytes)

theorem ofFn_u32Bytes (x : UInt32) : List.ofFn (u32Bytes x) = encode 4 x.toNat := rfl

theorem ofFn_u64Bytes (x : UInt64) : List.ofFn (u64Bytes x) = encode 8 x.toNat := rfl

theorem u32OfBytes_u32Bytes (x : UInt32) : u32OfBytes (List.ofFn (u32Bytes x)) = x := by
  have bound : x.toNat < 256 ^ 4 := x.toNat_lt
  rw [u32OfBytes, ofFn_u32Bytes, decode_encode, Nat.mod_eq_of_lt bound, UInt32.ofNat_toNat]

theorem u64OfBytes_u64Bytes (x : UInt64) : u64OfBytes (List.ofFn (u64Bytes x)) = x := by
  have bound : x.toNat < 256 ^ 8 := x.toNat_lt
  rw [u64OfBytes, ofFn_u64Bytes, decode_encode, Nat.mod_eq_of_lt bound, UInt64.ofNat_toNat]

theorem u32Bytes_u32OfBytes {bytes : List UInt8} (len : bytes.length = 4) :
    List.ofFn (u32Bytes (u32OfBytes bytes)) = bytes := by
  have bound : decode bytes < 2 ^ 32 := by
    have := decode_lt bytes
    rw [len] at this
    exact this
  rw [ofFn_u32Bytes, u32OfBytes, UInt32.toNat_ofNat_of_lt' bound, ← len]
  exact encode_decode bytes

theorem u64Bytes_u64OfBytes {bytes : List UInt8} (len : bytes.length = 8) :
    List.ofFn (u64Bytes (u64OfBytes bytes)) = bytes := by
  have bound : decode bytes < 2 ^ 64 := by
    have := decode_lt bytes
    rw [len] at this
    exact this
  rw [ofFn_u64Bytes, u64OfBytes, UInt64.toNat_ofNat_of_lt' bound, ← len]
  exact encode_decode bytes

end LittleEndian
