import HopperBench.Solana.Bytes

/-!
# The route and swap wire formats

Both routers carry their own copy of the route parser and of the swap encoder.
The copies differ in nothing but the crate they stand in, so the bodies are
given once, over the constants of the crate, and each router applies them to
its own.

`parse_eq` says what the parser does on every byte string.  It rests on the
decoded fields being plain cuts of the data, and the grammar of accepted
payloads follows from it.
-/

set_option autoImplicit false

namespace HopperBench.RouteWire

open LittleEndian HopperBench.Solana

/-- Decoded `EXECUTE_ROUTE` payload, after the discriminator.  `rates` holds
the raw rate blocks. -/
structure Route where
  minOut : UInt64
  hopCount : UInt8
  initialAmount : UInt64
  rates : List UInt8
deriving DecidableEq

def hopRateWith (hopRateLen : Nat) (rates : List UInt8) (i : Nat) :
    Except Abort (UInt32 × UInt32) := do
  let base ← usize (i * hopRateLen)
  let num ← u32At rates [base, base + 1, base + 2, base + 3]
  let den ← u32At rates [base + 4, base + 5, base + 6, base + 7]
  return (num, den)

def parseRouteWith (routeHeaderLen hopRateLen maxHops : Nat) (data : List UInt8) :
    Except Abort Route := do
  if data.length < routeHeaderLen then
    .error (.error .invalidInstructionData)
  else
    let minOut ← u64At data [0, 1, 2, 3, 4, 5, 6, 7]
    let hopCount ← index data 8
    if hopCount = 0 ∨ maxHops < hopCount.toNat then
      .error (.error .invalidInstructionData)
    else
      let initialAmount ← u64At data [9, 10, 11, 12, 13, 14, 15, 16]
      let expectedLen ← usize (routeHeaderLen + hopCount.toNat * hopRateLen)
      if data.length ≠ expectedLen then
        .error (.error .invalidInstructionData)
      else
        let rates ← sliceFrom data routeHeaderLen
        return { minOut, hopCount, initialAmount, rates }

/-- The swap data table `[disc, num[0], .., den[0], .., amt[0], ..]`. -/
def encodeSwapWith (disc : UInt8) (rateNum rateDen : UInt32) (amount : UInt64) : List UInt8 :=
  let num := u32Bytes rateNum
  let den := u32Bytes rateDen
  let amt := u64Bytes amount
  [disc, num 0, num 1, num 2, num 3, den 0, den 1, den 2, den 3, amt 0, amt 1, amt 2,
    amt 3, amt 4, amt 5, amt 6, amt 7]

theorem encodeSwapWith_eq (disc : UInt8) (rateNum rateDen : UInt32) (amount : UInt64) :
    encodeSwapWith disc rateNum rateDen amount =
      disc :: (List.ofFn (u32Bytes rateNum) ++
        (List.ofFn (u32Bytes rateDen) ++ List.ofFn (u64Bytes amount))) := by
  simp [encodeSwapWith, List.ofFn_succ]

/-! ## Rate blocks -/

def rateBlock (rate : UInt32 × UInt32) : List UInt8 :=
  List.ofFn (u32Bytes rate.1) ++ List.ofFn (u32Bytes rate.2)

def rateBlocks (rates : List (UInt32 × UInt32)) : List UInt8 := rates.flatMap rateBlock

theorem rateBlock_length (rate : UInt32 × UInt32) : (rateBlock rate).length = 8 := by
  simp [rateBlock]

theorem rateBlocks_cons (rate : UInt32 × UInt32) (rest : List (UInt32 × UInt32)) :
    rateBlocks (rate :: rest) = rateBlock rate ++ rateBlocks rest := rfl

theorem rateBlocks_length (rates : List (UInt32 × UInt32)) :
    (rateBlocks rates).length = rates.length * 8 := by
  induction rates with
  | nil => rfl
  | cons rate rest ih =>
      rw [rateBlocks_cons, List.length_append, rateBlock_length, ih, List.length_cons]
      omega

theorem drop_rateBlocks (rates : List (UInt32 × UInt32)) : ∀ i : Nat,
    (rateBlocks rates).drop (i * 8) = rateBlocks (rates.drop i) := by
  induction rates with
  | nil => intro i; simp [rateBlocks]
  | cons rate rest ih =>
      intro i
      cases i with
      | zero => simp
      | succ i =>
          have split : (i + 1) * 8 = 8 + i * 8 := by omega
          rw [rateBlocks_cons, split, ← List.drop_drop, List.drop_left' (rateBlock_length rate),
            ih, List.drop_succ_cons]

theorem hopRateWith_rateBlocks {rates : List (UInt32 × UInt32)} {i : Nat}
    (inside : i < rates.length) (small : i < 2 ^ 32) :
    hopRateWith 8 (rateBlocks rates) i = .ok rates[i] := by
  have len := rateBlocks_length rates
  have tail : (rateBlocks rates).drop (i * 8) =
      rateBlock rates[i] ++ rateBlocks (rates.drop (i + 1)) := by
    rw [drop_rateBlocks, List.drop_eq_getElem_cons inside, rateBlocks_cons]
  have tailDen : (rateBlocks rates).drop (i * 8 + 4) =
      List.ofFn (u32Bytes rates[i].2) ++ rateBlocks (rates.drop (i + 1)) := by
    rw [← List.drop_drop, tail, rateBlock, List.append_assoc,
      List.drop_left' (by simp)]
  have readNum := u32At_range (rateBlocks rates) (i * 8) (by omega) (by omega)
  have readDen := u32At_range (rateBlocks rates) (i * 8 + 4)
    (by omega) (by omega)
  rw [tail, rateBlock, List.append_assoc, List.take_left' (by simp),
    u32OfBytes_u32Bytes] at readNum
  rw [tailDen, List.take_left' (by simp), u32OfBytes_u32Bytes] at readDen
  unfold hopRateWith
  rw [usize_of_lt (by omega)]
  simp only [bind, Except.bind, readNum]
  rw [readDen]
  rfl

theorem exists_rateBlocks : ∀ (count : Nat) (bytes : List UInt8), bytes.length = count * 8 →
    ∃ rates : List (UInt32 × UInt32), rates.length = count ∧ rateBlocks rates = bytes := by
  intro count
  induction count with
  | zero =>
      intro bytes len
      have empty : bytes = [] := List.length_eq_zero_iff.mp (by omega)
      exact ⟨[], rfl, empty ▸ rfl⟩
  | succ count ih =>
      intro bytes len
      obtain ⟨rest, restLength, restBlocks⟩ := ih (bytes.drop 8) (by simp; omega)
      have numLength : (bytes.take 4).length = 4 := by simp; omega
      have denLength : ((bytes.drop 4).take 4).length = 4 := by simp; omega
      refine ⟨(u32OfBytes (bytes.take 4), u32OfBytes ((bytes.drop 4).take 4)) :: rest, ?_, ?_⟩
      · simp [restLength]
      · have denEnd : (bytes.drop 4).drop 4 = bytes.drop 8 := by rw [List.drop_drop]
        rw [rateBlocks_cons, rateBlock, u32Bytes_u32OfBytes numLength,
          u32Bytes_u32OfBytes denLength, restBlocks, List.append_assoc, ← denEnd,
          List.take_append_drop, List.take_append_drop]

/-! ## The parser -/

def countByte (data : List UInt8) : UInt8 := data.getD 8 0

theorem countByte_eq {data : List UInt8} (inside : 8 < data.length) :
    countByte data = data[8] := by
  simp [countByte, List.getElem?_eq_getElem inside]

/-- The lengths and the hop count that the parser accepts. -/
def Accepted (data : List UInt8) : Prop :=
  17 ≤ data.length ∧ 1 ≤ (countByte data).toNat ∧ (countByte data).toNat ≤ 3 ∧
    data.length = 17 + (countByte data).toNat * 8

instance (data : List UInt8) : Decidable (Accepted data) :=
  inferInstanceAs (Decidable (_ ∧ _ ∧ _ ∧ _))

def decoded (data : List UInt8) : Route where
  minOut := u64OfBytes (data.take 8)
  hopCount := countByte data
  initialAmount := u64OfBytes ((data.drop 9).take 8)
  rates := data.drop 17

theorem parse_eq (data : List UInt8) :
    parseRouteWith 17 8 3 data =
      if Accepted data then .ok (decoded data)
      else .error (.error .invalidInstructionData) := by
  unfold parseRouteWith
  by_cases short : data.length < 17
  · have rejected : ¬Accepted data := fun accepted => by
      have := accepted.1
      omega
    rw [if_pos short, if_neg rejected]
  · have headLow := u64At_range data 0 (by omega) (by omega)
    have headHigh := u64At_range data 9 (by omega) (by omega)
    have countInside : 8 < data.length := by omega
    have count : index data 8 = .ok (countByte data) := by
      rw [index_of_lt (by omega) countInside, countByte_eq countInside]
    rw [if_neg short]
    simp only [bind, Except.bind, Nat.zero_add, List.drop_zero, Nat.reduceAdd] at headLow headHigh ⊢
    rw [headLow, count]
    have countBound : (countByte data).toNat < 256 := (countByte data).toNat_lt
    have lengths : usize (17 + (countByte data).toNat * 8) =
        .ok (17 + (countByte data).toNat * 8) := usize_of_lt (by omega)
    have zeroCount : countByte data = 0 ↔ (countByte data).toNat = 0 := by
      rw [← UInt8.toNat_inj]
      rfl
    dsimp only
    by_cases outside : countByte data = 0 ∨ 3 < (countByte data).toNat
    · have rejected : ¬Accepted data := fun accepted => by
        obtain ⟨_, low, high, _⟩ := accepted
        rcases outside with zero | above
        · have := zeroCount.mp zero
          omega
        · omega
      rw [if_pos outside, if_neg rejected]
    · rw [if_neg outside, headHigh]
      dsimp only
      rw [lengths]
      dsimp only
      have low : 1 ≤ (countByte data).toNat := by
        rcases Nat.eq_zero_or_pos (countByte data).toNat with zero | positive
        · exact absurd (.inl (zeroCount.mpr zero)) outside
        · exact positive
      have high : (countByte data).toNat ≤ 3 := Nat.not_lt.mp fun above => outside (.inr above)
      by_cases exact : data.length = 17 + (countByte data).toNat * 8
      · have accepted : Accepted data := ⟨by omega, low, high, exact⟩
        rw [if_neg (not_not.mpr exact), if_pos accepted, sliceFrom_of_le (by omega)]
        rfl
      · have rejected : ¬Accepted data := fun accepted => exact accepted.2.2.2
        rw [if_pos exact, if_neg rejected]

theorem parse_ok_iff {data : List UInt8} {route : Route} :
    parseRouteWith 17 8 3 data = .ok route ↔ Accepted data ∧ route = decoded data := by
  rw [parse_eq]
  by_cases accepted : Accepted data
  · simp [accepted, eq_comm]
  · simp [accepted]

/-! ## Payloads -/

def payload (minOut : UInt64) (hopCount : UInt8) (initialAmount : UInt64)
    (rates : List (UInt32 × UInt32)) : List UInt8 :=
  List.ofFn (u64Bytes minOut) ++
    (hopCount :: (List.ofFn (u64Bytes initialAmount) ++ rateBlocks rates))

section Payload

variable (minOut : UInt64) (hopCount : UInt8) (initialAmount : UInt64)
  (rates : List (UInt32 × UInt32))

theorem payload_length :
    (payload minOut hopCount initialAmount rates).length = 17 + rates.length * 8 := by
  simp only [payload, List.length_append, List.length_cons, List.length_ofFn,
    rateBlocks_length]
  omega

theorem payload_hopCount : countByte (payload minOut hopCount initialAmount rates) = hopCount := by
  simp [countByte, payload]

theorem decoded_payload : decoded (payload minOut hopCount initialAmount rates) =
    ⟨minOut, hopCount, initialAmount, rateBlocks rates⟩ := by
  have drop9 : (payload minOut hopCount initialAmount rates).drop 9 =
      List.ofFn (u64Bytes initialAmount) ++ rateBlocks rates := by
    rw [payload, List.drop_append]
    simp
  have drop17 : (payload minOut hopCount initialAmount rates).drop 17 = rateBlocks rates := by
    have split : 17 = 9 + 8 := rfl
    rw [split, ← List.drop_drop, drop9, List.drop_left' (by simp)]
  have low : (payload minOut hopCount initialAmount rates).take 8 =
      List.ofFn (u64Bytes minOut) := by
    rw [payload, List.take_left' (by simp)]
  unfold decoded
  rw [low, drop9, drop17, List.take_left' (by simp), u64OfBytes_u64Bytes, u64OfBytes_u64Bytes,
    payload_hopCount]

end Payload

theorem accepted_iff_payload {data : List UInt8} :
    Accepted data ↔ ∃ minOut initialAmount rates, 1 ≤ rates.length ∧ rates.length ≤ 3 ∧
      data = payload minOut (UInt8.ofNat rates.length) initialAmount rates := by
  constructor
  · intro given
    obtain ⟨_, low, high, len⟩ := given
    obtain ⟨rates, rateCount, blocks⟩ :=
      exists_rateBlocks (countByte data).toNat (data.drop 17) (by simp; omega)
    refine ⟨u64OfBytes (data.take 8), u64OfBytes ((data.drop 9).take 8), rates, by omega,
      by omega, ?_⟩
    have countInside : 8 < data.length := by omega
    have countByte : UInt8.ofNat rates.length = data[8] := by
      rw [rateCount, UInt8.ofNat_toNat, countByte_eq countInside]
    have tail : data.drop 17 = (data.drop 9).drop 8 := by rw [List.drop_drop]
    rw [payload, u64Bytes_u64OfBytes (by simp; omega), u64Bytes_u64OfBytes (by simp; omega),
      blocks, tail, List.take_append_drop, countByte, List.cons_getElem_drop_succ,
      List.take_append_drop]
  · intro given
    obtain ⟨minOut, initialAmount, rates, low, high, rfl⟩ := given
    have count : (UInt8.ofNat rates.length).toNat = rates.length := by
      rw [UInt8.toNat_ofNat']
      omega
    unfold Accepted
    rw [payload_length, payload_hopCount, count]
    omega

theorem hopRate_decoded {data : List UInt8} (accepted : Accepted data) {hop : Nat}
    (inside : hop < (countByte data).toNat) :
    ∃ rate, hopRateWith 8 (decoded data).rates hop = .ok rate := by
  obtain ⟨minOut, initialAmount, rates, _, few, rfl⟩ := accepted_iff_payload.mp accepted
  rw [payload_hopCount, UInt8.toNat_ofNat'] at inside
  rw [decoded_payload]
  exact ⟨_, hopRateWith_rateBlocks (by omega) (by omega)⟩

end HopperBench.RouteWire
