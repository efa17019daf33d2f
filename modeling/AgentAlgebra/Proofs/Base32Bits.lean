import AgentAlgebra.Digest.Register
import AgentAlgebra.Proofs.Base32
import Mathlib.Algebra.Order.Floor.Div
import Mathlib.Data.List.GetD
import Mathlib.Data.List.Induction
import Mathlib.GroupTheory.GroupAction.Ring
/-!
# Base32hex digits bit by bit

Each digit of a base32hex text stands for five bits of the bytes, in their order, with zeros behind
the last of them. A register of 32 bits gives the same digits: it never holds more than twelve bits,
so none is shifted out of it.
-/

namespace AgentAlgebra.Base32Hex

/-- The digits in the order of what they stand for. -/
def alphabet : List Char := "0123456789abcdefghijklmnopqrstuv".toList

/-- A bit of bytes, counted from the most significant bit of the first byte on. Behind the last byte
there are zeros. -/
def bitAt (bytes : List UInt8) (place : Nat) : Bool :=
  (bytes.getD (place / 8) 0).toNat.testBit (7 - place % 8)

/-- The number of the five bits that a digit stands for, the first of which counts most. -/
def fiveBits (bytes : List UInt8) (place : Nat) : Nat :=
  Nat.ofBits fun i : Fin 5 => bitAt bytes (5 * place + (4 - i))

theorem getElem?_alphabet {n : Nat} (small : n < 32) : alphabet[n]? = some (digit n) := by
  revert n
  decide

section Numbers

variable {text front back : List Char} {c : Char}

theorem digitsFrom_append (start : Nat) :
    digitsFrom start (front ++ back) = digitsFrom (digitsFrom start front) back :=
  List.foldl_append

theorem digitsFrom_cons (start : Nat) :
    digitsFrom start (c :: back) = digitsFrom (start * 32 + digitValue c) back := rfl

theorem digitsFrom_eq (start : Nat) (text : List Char) :
    digitsFrom start text = start * 32 ^ text.length + digitsFrom 0 text := by
  induction text generalizing start with
  | nil => simp [digitsFrom]
  | cons c text ih =>
    rw [digitsFrom_cons, digitsFrom_cons, ih, ih (0 * 32 + digitValue c), List.length_cons,
      Nat.pow_succ]
    ring

/-- The text is made of digits. -/
def Digital (text : List Char) : Prop := ∀ c ∈ text, ∃ n < 32, c = digit n

theorem Digital.digitsFrom_lt (digital : Digital text) : digitsFrom 0 text < 32 ^ text.length := by
  induction text with
  | nil => simp [digitsFrom]
  | cons c text ih =>
    obtain ⟨⟨n, small, rfl⟩, rest⟩ := List.forall_mem_cons.mp digital
    have later := ih rest
    have room : (n + 1) * 32 ^ text.length ≤ 32 * 32 ^ text.length := Nat.mul_le_mul_right _ small
    rw [Nat.succ_mul] at room
    rw [digitsFrom_cons, digitsFrom_eq, digitValue_digit small, Nat.zero_mul, Nat.zero_add,
      List.length_cons, Nat.pow_succ]
    omega

/-- A digit is read off the number of the text. -/
theorem Digital.digit_eq (digital : Digital (front ++ c :: back)) :
    c = digit (digitsFrom 0 (front ++ c :: back) / 32 ^ back.length % 32) := by
  obtain ⟨-, ⟨n, small, rfl⟩, behind⟩ :=
    List.forall_mem_append.mp digital |>.imp_right List.forall_mem_cons.mp
  have number : digitsFrom 0 (front ++ digit n :: back) =
      32 ^ back.length * (digitsFrom 0 front * 32 + n) + digitsFrom 0 back := by
    rw [digitsFrom_append, digitsFrom_cons, digitsFrom_eq, digitValue_digit small]
    ring
  rw [number, Nat.mul_add_div (Nat.pow_pos (by decide)),
    Nat.div_eq_of_lt (Digital.digitsFrom_lt behind), Nat.add_zero, Nat.mul_add_mod_self_right,
    Nat.mod_eq_of_lt small]

theorem Digital.getElem? (digital : Digital text) {place : Nat} (within : place < text.length) :
    text[place]? = some (digit (digitsFrom 0 text / 32 ^ (text.length - 1 - place) % 32)) := by
  have parted : text.take place ++ text[place] :: text.drop (place + 1) = text := by simp
  have length : (text.drop (place + 1)).length = text.length - 1 - place := by
    rw [List.length_drop]
    omega
  have shown := Digital.digit_eq (parted ▸ digital)
  rw [parted, length] at shown
  rw [List.getElem?_eq_getElem within, ← shown]

end Numbers

/-- What a register writes and a text holds are digits. -/
theorem digital_encodeFrom (pending : Pending) (bytes : List UInt8) :
    Digital (encodeFrom pending bytes) := by
  have taken (n : Nat) : ∃ k < 32, digit (n % 32) = digit k :=
    ⟨n % 32, Nat.mod_lt _ (by decide), rfl⟩
  induction bytes generalizing pending with
  | nil =>
    unfold encodeFrom
    split
    · simp [Digital]
    · simpa [Digital] using taken _
  | cons byte bytes ih =>
    rw [encodeFrom_cons]
    refine List.forall_mem_append.mpr ⟨?_, ih _⟩
    unfold Pending.push
    dsimp only
    split
    · simpa [Digital] using ⟨taken _, taken _⟩
    · simpa [Digital] using taken _

section Bits

variable {bytes : List UInt8}

/-- The bits of the number of bytes are the bits of the bytes, the last of which counts least. -/
theorem testBit_bytesFrom {place : Nat} (within : place < 8 * bytes.length) :
    (bytesFrom 0 bytes).testBit (8 * bytes.length - 1 - place) = bitAt bytes place := by
  induction bytes using List.reverseRecOn with
  | nil => simp at within
  | append_singleton bytes byte ih =>
    have number : bytesFrom 0 (bytes ++ [byte]) = 2 ^ 8 * bytesFrom 0 bytes + byte.toNat := by
      rw [bytesFrom, List.foldl_append, Nat.mul_comm]
      rfl
    rw [List.length_append, List.length_singleton] at within ⊢
    rw [number, Nat.testBit_two_pow_mul_add _ byte.toNat_lt]
    unfold bitAt at ih ⊢
    by_cases before : place < 8 * bytes.length
    · rw [List.getD_append _ _ _ _ (by omega), ← ih before, if_neg (by omega)]
      congr 1
      omega
    · rw [List.getD_append_right _ _ _ _ (by omega), if_pos (by omega),
        show place / 8 - bytes.length = 0 by omega]
      congr 1
      omega

theorem bitAt_of_le {place : Nat} (beyond : 8 * bytes.length ≤ place) :
    bitAt bytes place = false := by
  rw [bitAt, List.getD_eq_default _ _ (by omega)]
  simp

/-- The five bits of a digit, as a part of the number of the bytes with zero bits behind. -/
theorem fiveBits_eq {length zeros place : Nat} (size : 5 * length = 8 * bytes.length + zeros)
    (within : place < length) :
    bytesFrom 0 bytes * 2 ^ zeros / 32 ^ (length - 1 - place) % 32 = fiveBits bytes place := by
  refine Nat.eq_of_testBit_eq fun i => ?_
  rw [show 32 = 2 ^ 5 by rfl, ← Nat.pow_mul, Nat.testBit_mod_two_pow, Nat.testBit_div_two_pow,
    Nat.testBit_mul_two_pow]
  by_cases five : i < 5
  · have digit : (fiveBits bytes place).testBit i = bitAt bytes (5 * place + (4 - i)) := by
      rw [fiveBits, Nat.testBit_ofBits_lt _ _ five]
    rw [digit, decide_eq_true five, Bool.true_and]
    by_cases inside : 5 * place + (4 - i) < 8 * bytes.length
    · have shifted : i + 5 * (length - 1 - place) - zeros =
          8 * bytes.length - 1 - (5 * place + (4 - i)) := by omega
      rw [← testBit_bytesFrom inside, decide_eq_true (by omega), Bool.true_and, shifted]
    · rw [bitAt_of_le (by omega), decide_eq_false (by omega), Bool.false_and]
  · rw [decide_eq_false five, Bool.false_and, fiveBits, Nat.testBit_ofBits_ge _ _ (by omega)]

theorem length_encodeFrom_none (bytes : List UInt8) :
    5 * (encodeFrom .none bytes).length = 8 * bytes.length + padding (8 * bytes.length) := by
  simpa [Pending.none] using length_encodeFrom Pending.fits_none bytes

/-- Each digit of the text of bytes stands for its five bits. -/
theorem getElem?_encodeFrom {place : Nat} (within : place < (encodeFrom .none bytes).length) :
    (encodeFrom .none bytes)[place]? = alphabet[fiveBits bytes place]? := by
  have number : digitsFrom 0 (encodeFrom .none bytes) =
      bytesFrom 0 bytes * 2 ^ padding (8 * bytes.length) := by
    simpa [Pending.none] using digitsFrom_encodeFrom Pending.fits_none bytes 0
  rw [(digital_encodeFrom .none bytes).getElem? within, number,
    fiveBits_eq (length_encodeFrom_none bytes) within]
  exact (getElem?_alphabet (Nat.ofBits_lt_two_pow _)).symm

end Bits

namespace Register

variable {register : Register} {pending : Pending} {byte : UInt8} {bytes : List UInt8}

/-- The register holds what is pending. -/
structure Holds (register : Register) (pending : Pending) : Prop where
  buffer : register.buffer.toNat = pending.value
  bits : register.bits = pending.count

theorem holds_empty : Holds empty .none := ⟨rfl, rfl⟩

/-- At most four bits are held between bytes. -/
theorem Holds.small (holds : register.Holds pending) (fits : pending.Fits) :
    register.buffer.toNat < 2 ^ 4 := by
  rw [holds.buffer]
  exact fits.value.trans_le (Nat.pow_le_pow_right (by decide) (Nat.le_of_lt_succ fits.count))

/-- A word of at most four bits has room for a byte: no bit is shifted out, and twelve are held. -/
theorem toNat_load (small : register.buffer.toNat < 2 ^ 4) (byte : UInt8) :
    (register.load byte).buffer.toNat = register.buffer.toNat * 2 ^ 8 + byte.toNat ∧
      (register.load byte).buffer.toNat < 2 ^ 12 := by
  have byteSmall := byte.toNat_lt
  have room : register.buffer.toNat <<< 8 < 2 ^ 32 := by
    rw [Nat.shiftLeft_eq]
    omega
  have loaded : (register.load byte).buffer.toNat = register.buffer.toNat * 2 ^ 8 + byte.toNat := by
    rw [load, UInt32.toNat_or, UInt32.toNat_shiftLeft, UInt8.toNat_toUInt32]
    show register.buffer.toNat <<< 8 % 2 ^ 32 ||| byte.toNat = _
    rw [Nat.mod_eq_of_lt room, ← Nat.shiftLeft_add_eq_or_of_lt byteSmall, Nat.shiftLeft_eq]
  refine ⟨loaded, ?_⟩
  rw [loaded]
  omega

section Words

variable {count : Nat}

theorem toNat_toUInt32 (small : count < 32) : count.toUInt32.toNat % 32 = count := by
  rw [Nat.toUInt32, UInt32.toNat_ofNat']
  omega

theorem toNat_taken (buffer : UInt32) (small : count < 32) :
    ((buffer >>> count.toUInt32) &&& 31).toNat = (buffer.toNat >>> count) % 32 := by
  rw [UInt32.toNat_and, UInt32.toNat_shiftRight, toNat_toUInt32 small]
  exact Nat.and_two_pow_sub_one_eq_mod _ 5

theorem toNat_filled (buffer : UInt32) (small : count < 32) :
    ((buffer <<< count.toUInt32) &&& 31).toNat = (buffer.toNat <<< count) % 32 := by
  rw [UInt32.toNat_and, UInt32.toNat_shiftLeft, toNat_toUInt32 small]
  exact (Nat.and_two_pow_sub_one_eq_mod _ 5).trans (Nat.mod_mod_of_dvd _ (by decide))

theorem toNat_masked (buffer : UInt32) (small : count < 32) :
    (buffer &&& ((1 <<< count.toUInt32) - 1)).toNat = buffer.toNat % 1 <<< count := by
  have one : ((1 : UInt32) <<< count.toUInt32).toNat = 2 ^ count := by
    rw [UInt32.toNat_shiftLeft, toNat_toUInt32 small, UInt32.toNat_one, Nat.shiftLeft_eq,
      Nat.one_mul]
    exact Nat.mod_eq_of_lt (Nat.pow_lt_pow_right (by decide) small)
  have atLeast : (1 : UInt32) ≤ 1 <<< count.toUInt32 := by
    rw [UInt32.le_iff_toNat_le, one]
    exact Nat.one_le_two_pow
  rw [UInt32.toNat_and, UInt32.toNat_sub_of_le _ _ atLeast, one, UInt32.toNat_one,
    Nat.and_two_pow_sub_one_eq_mod, Nat.shiftLeft_eq, Nat.one_mul]

end Words

theorem drain_of_lt (buffer : UInt32) {bits : Nat} (few : bits < 5) :
    drain buffer bits = ([], bits) := by
  match bits, few with
  | 0, _ | 1, _ | 2, _ | 3, _ | 4, _ => rfl

theorem drain_add (buffer : UInt32) {bits : Nat} (small : bits < 32) :
    drain buffer (bits + 5) =
      (digit ((buffer.toNat >>> bits) % 32) :: (drain buffer bits).1, (drain buffer bits).2) := by
  rw [drain, toNat_taken buffer small]

/-- A byte gives the same digits as it does to what is pending, and what is left is the same. -/
theorem Holds.feed (holds : register.Holds pending) (fits : pending.Fits) (byte : UInt8) :
    (register.feed byte).1 = (pending.push byte).1 ∧
      (register.feed byte).2.Holds (pending.push byte).2 := by
  obtain ⟨value, count⟩ := pending
  obtain ⟨loaded, -⟩ := toNat_load (holds.small fits) byte
  have few := fits.count
  have bits : (register.load byte).bits = count + 8 := by rw [load, holds.bits]
  rw [holds.buffer, show 2 ^ 8 = 256 from rfl] at loaded
  unfold Register.feed Pending.push
  dsimp only at loaded few ⊢
  rw [bits, ← loaded]
  generalize (register.load byte).buffer = buffer
  by_cases double : 10 ≤ count + 8
  · -- Two digits are full.
    obtain ⟨left, rfl⟩ := Nat.exists_eq_add_of_le' (show 2 ≤ count by omega)
    have drained : drain buffer (left + 2 + 8) =
        ([digit (buffer.toNat >>> (left + 5) % 32), digit (buffer.toNat >>> left % 32)], left) := by
      rw [show left + 2 + 8 = left + 5 + 5 by omega, drain_add _ (by omega), drain_add _ (by omega),
        drain_of_lt _ (by omega)]
    rw [if_pos double, drained]
    exact ⟨rfl, toNat_masked _ (by omega), rfl⟩
  · -- One digit is full.
    have drained : drain buffer (count + 8) =
        ([digit (buffer.toNat >>> (count + 3) % 32)], count + 3) := by
      rw [show count + 8 = count + 3 + 5 by omega, drain_add _ (by omega), drain_of_lt _ (by omega)]
    rw [if_neg double, drained]
    exact ⟨rfl, toNat_masked _ (by omega), rfl⟩

/-- A register gives the digits of bytes. -/
theorem Holds.digits (holds : register.Holds pending) (fits : pending.Fits) (bytes : List UInt8) :
    register.digits bytes = encodeFrom pending bytes := by
  induction bytes generalizing register pending with
  | nil =>
    unfold Register.digits last encodeFrom
    rw [holds.bits, ← holds.buffer]
    by_cases none : pending.count = 0
    · simp [none]
    · rw [if_pos (by omega), if_neg none, toNat_filled _ (by omega)]
  | cons byte bytes ih =>
    obtain ⟨same, later⟩ := holds.feed fits byte
    rw [Register.digits, encodeFrom_cons, same, ih later (push_spec fits byte).1]

/-- Behind any bytes a register holds what is pending behind them. -/
theorem holds_behind (bytes : List UInt8) :
    ∃ pending, (empty.behind bytes).Holds pending ∧ pending.Fits := by
  induction bytes using List.reverseRecOn with
  | nil => exact ⟨.none, holds_empty, Pending.fits_none⟩
  | append_singleton bytes byte ih =>
    obtain ⟨pending, holds, fits⟩ := ih
    rw [behind, List.foldl_append]
    exact ⟨_, (holds.feed fits byte).2, (push_spec fits byte).1⟩

end Register

/-- The text of bytes is their unpadded base32hex encoding. Five bits go to a digit, each digit
stands for the five bits in its place, and different bytes have different texts. A register of 32
bits gives these digits, and as it never holds more than twelve bits, shifting a byte in loses none
of them. -/
theorem encode_unpadded (bytes : List UInt8) :
    (encode bytes).length = 8 * bytes.length ⌈/⌉ 5 ∧
      (∀ place < 8 * bytes.length ⌈/⌉ 5,
        (encode bytes).toList[place]? = alphabet[fiveBits bytes place]?) ∧
      Register.empty.digits bytes = (encode bytes).toList ∧
      (Register.empty.behind bytes).buffer.toNat < 2 ^ 4 ∧
      (∀ byte, ((Register.empty.behind bytes).load byte).buffer.toNat =
          (Register.empty.behind bytes).buffer.toNat * 2 ^ 8 + byte.toNat ∧
        ((Register.empty.behind bytes).load byte).buffer.toNat < 2 ^ 12) ∧
      ∀ other, encode bytes = encode other → bytes = other := by
  have length : (encodeFrom .none bytes).length = 8 * bytes.length ⌈/⌉ 5 := by
    have size := length_encodeFrom_none bytes
    unfold padding at size
    rw [Nat.ceilDiv_eq_add_pred_div]
    omega
  have text : (encode bytes).toList = encodeFrom .none bytes := String.toList_ofList
  obtain ⟨pending, holds, fits⟩ := Register.holds_behind bytes
  have small := holds.small fits
  refine ⟨?_, fun place within => ?_, ?_, small, Register.toNat_load small, ?_⟩
  · rw [← String.length_toList, text, length]
  · rw [text]
    exact getElem?_encodeFrom (length ▸ within)
  · rw [text]
    exact Register.holds_empty.digits Pending.fits_none bytes
  · exact fun other => encode_inj.mp

example : (encode [102, 111, 111, 98, 97, 114]).toList = "cpnmuoj1e8".toList := by rfl

end AgentAlgebra.Base32Hex
