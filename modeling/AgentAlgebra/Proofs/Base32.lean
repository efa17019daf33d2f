import AgentAlgebra.Digest.Base32Hex
import Mathlib.Tactic.Ring
/-!
# Bytes and their base32hex digits

The digits of bytes, read as a number to the base 32, are the bytes read as a number to the base 256
with the zero bits that fill the last digit. The count of digits tells how many bytes there were, so
different bytes have different texts.
-/

namespace AgentAlgebra.Base32Hex

/-- The number that bytes make after a number, most significant byte first. -/
def bytesFrom (start : Nat) (bytes : List UInt8) : Nat :=
  bytes.foldl (fun n byte => n * 256 + byte.toNat) start

/-- The number that a digit stands for. -/
def digitValue (c : Char) : Nat :=
  if c.toNat < 'a'.toNat then c.toNat - '0'.toNat else c.toNat - 'a'.toNat + 10

/-- The number that digits make after a number, most significant digit first. -/
def digitsFrom (start : Nat) (text : List Char) : Nat :=
  text.foldl (fun n c => n * 32 + digitValue c) start

/-- How many zero bits fill the last digit behind some bits. -/
def padding (bits : Nat) : Nat := (5 - bits % 5) % 5

theorem digitValue_digit {n : Nat} (small : n < 32) : digitValue (digit n) = n := by
  revert n
  decide

/-- What is pending is less than a digit. -/
structure Pending.Fits (pending : Pending) : Prop where
  count : pending.count < 5
  value : pending.value < 2 ^ pending.count

theorem Pending.fits_none : Pending.none.Fits := ⟨by decide, by decide⟩

variable {pending : Pending} {byte : UInt8}

/-- Of some bits, the five at the top are split off as a digit. -/
theorem split_digit (value : Nat) {count : Nat} (enough : 5 ≤ count) (start : Nat) :
    digitsFrom start [digit ((value >>> (count - 5)) % 32)] * 2 ^ (count - 5) +
      value % 2 ^ (count - 5) = start * 2 ^ count + value % 2 ^ count := by
  obtain ⟨low, rfl⟩ := Nat.exists_eq_add_of_le' enough
  have read : digitsFrom start [digit ((value / 2 ^ low) % 32)] =
      start * 32 + value / 2 ^ low % 32 := by
    simp only [digitsFrom, List.foldl_cons, List.foldl_nil,
      digitValue_digit (Nat.mod_lt (value / 2 ^ low) (by decide : 0 < 32))]
  have parts : value % 2 ^ (low + 5) = value % 2 ^ low + 2 ^ low * (value / 2 ^ low % 32) := by
    rw [Nat.pow_add, Nat.mod_mul]
  rw [Nat.add_sub_cancel, Nat.shiftRight_eq_div_pow, read, parts]
  ring

/-- What taking in a byte does: no bit is lost, and less than a digit stays pending. -/
theorem push_spec (fits : pending.Fits) (byte : UInt8) :
    (pending.push byte).2.Fits ∧
      5 * (pending.push byte).1.length + (pending.push byte).2.count = pending.count + 8 ∧
      ∀ start, digitsFrom start (pending.push byte).1 * 2 ^ (pending.push byte).2.count +
        (pending.push byte).2.value =
          (start * 2 ^ pending.count + pending.value) * 256 + byte.toNat := by
  obtain ⟨value, count⟩ := pending
  obtain ⟨few, small⟩ := fits
  dsimp only at few small
  have byteSmall := byte.toNat_lt
  have within : (value * 256 + byte.toNat) % 2 ^ (count + 8) = value * 256 + byte.toNat := by
    refine Nat.mod_eq_of_lt ?_
    rw [Nat.pow_add]
    omega
  have whole (start : Nat) :
      start * 2 ^ (count + 8) + (value * 256 + byte.toNat) % 2 ^ (count + 8) =
        (start * 2 ^ count + value) * 256 + byte.toNat := by
    rw [within, Nat.pow_add]
    ring
  unfold Pending.push
  generalize value * 256 + byte.toNat = bits at whole
  simp only [Nat.shiftLeft_eq, Nat.one_mul]
  have first := split_digit bits (by omega : 5 ≤ count + 8)
  split
  · -- Two digits are full.
    rename_i double
    have second := split_digit bits (by omega : 5 ≤ count + 8 - 5)
    rw [Nat.sub_sub] at second
    have left : count + 8 - 10 < 5 := by omega
    have length : 5 * 2 + (count + 8 - 10) = count + 8 := by omega
    refine ⟨⟨left, Nat.mod_lt _ (Nat.two_pow_pos _)⟩, length, fun start => ?_⟩
    rw [← whole, ← first, ← second]
    simp only [digitsFrom, List.foldl_cons, List.foldl_nil]
  · -- One digit is full.
    rename_i single
    have left : count + 8 - 5 < 5 := by omega
    have length : 5 * 1 + (count + 8 - 5) = count + 8 := by omega
    refine ⟨⟨left, Nat.mod_lt _ (Nat.two_pow_pos _)⟩, length, fun start => ?_⟩
    rw [← whole, ← first]

theorem encodeFrom_cons (pending : Pending) (byte : UInt8) (bytes : List UInt8) :
    encodeFrom pending (byte :: bytes) =
      (pending.push byte).1 ++ encodeFrom (pending.push byte).2 bytes :=
  rfl

/-- Five bits go to a digit, the bits that fill the last one included. -/
theorem length_encodeFrom (fits : pending.Fits) (bytes : List UInt8) :
    5 * (encodeFrom pending bytes).length =
      pending.count + 8 * bytes.length + padding (pending.count + 8 * bytes.length) := by
  induction bytes generalizing pending with
  | nil =>
    have few := fits.count
    unfold encodeFrom padding
    by_cases empty : pending.count = 0
    · simp [empty]
    · rw [if_neg empty, List.length_singleton, List.length_nil]
      omega
  | cons byte bytes ih =>
    obtain ⟨next, count, -⟩ := push_spec fits byte
    have later := ih next
    unfold padding at later ⊢
    rw [encodeFrom_cons, List.length_append, List.length_cons]
    omega

/-- What is left at the end makes one more digit, unless nothing is. -/
theorem digitsFrom_encodeFrom_nil (fits : pending.Fits) (start : Nat) :
    digitsFrom start (encodeFrom pending []) =
      (start * 2 ^ pending.count + pending.value) * 2 ^ padding pending.count := by
  obtain ⟨few, small⟩ := fits
  unfold encodeFrom
  by_cases empty : pending.count = 0
  · have none : pending.value = 0 := by simpa [empty] using small
    simp [empty, none, digitsFrom, padding]
  · obtain ⟨fill, rest⟩ : ∃ fill, 5 = pending.count + fill := ⟨5 - pending.count, by omega⟩
    have filled : padding pending.count = fill := by
      unfold padding
      omega
    have digit : 32 = 2 ^ pending.count * 2 ^ fill := by rw [← Nat.pow_add, ← rest]
    have within : pending.value * 2 ^ fill < 32 := by
      rw [digit]
      exact Nat.mul_lt_mul_of_pos_right small (Nat.two_pow_pos fill)
    have gap : 5 - pending.count = fill := by omega
    rw [if_neg empty, filled, gap, Nat.shiftLeft_eq, Nat.mod_eq_of_lt within]
    simp only [digitsFrom, List.foldl_cons, List.foldl_nil, digitValue_digit within]
    calc start * 32 + pending.value * 2 ^ fill
        = start * (2 ^ pending.count * 2 ^ fill) + pending.value * 2 ^ fill := by rw [← digit]
      _ = (start * 2 ^ pending.count + pending.value) * 2 ^ fill := by ring

/-- The digits are the bytes, filled up with zero bits. -/
theorem digitsFrom_encodeFrom (fits : pending.Fits) (bytes : List UInt8) (start : Nat) :
    digitsFrom start (encodeFrom pending bytes) =
      bytesFrom (start * 2 ^ pending.count + pending.value) bytes *
        2 ^ padding (pending.count + 8 * bytes.length) := by
  induction bytes generalizing pending start with
  | nil => exact digitsFrom_encodeFrom_nil fits start
  | cons byte bytes ih =>
    obtain ⟨next, count, read⟩ := push_spec fits byte
    have pads : padding ((pending.push byte).2.count + 8 * bytes.length) =
        padding (pending.count + 8 * (bytes.length + 1)) := by
      unfold padding
      omega
    calc digitsFrom start (encodeFrom pending (byte :: bytes))
        = digitsFrom (digitsFrom start (pending.push byte).1)
            (encodeFrom (pending.push byte).2 bytes) := by
          rw [encodeFrom_cons, digitsFrom, List.foldl_append]
          rfl
      _ = bytesFrom ((start * 2 ^ pending.count + pending.value) * 256 + byte.toNat) bytes *
            2 ^ padding (pending.count + 8 * (bytes.length + 1)) := by rw [ih next, read, pads]

/-- Bytes of one number are known by the number. -/
theorem bytesFrom_inj {bytes bytes' : List UInt8} {start start' : Nat}
    (lengths : bytes.length = bytes'.length)
    (same : bytesFrom start bytes = bytesFrom start' bytes') : start = start' ∧ bytes = bytes' := by
  induction bytes generalizing bytes' start start' with
  | nil =>
    obtain rfl := List.eq_nil_of_length_eq_zero lengths.symm
    exact ⟨same, rfl⟩
  | cons byte bytes ih =>
    cases bytes' with
    | nil => exact nomatch lengths
    | cons byte' bytes' =>
      obtain ⟨both, rest⟩ := ih (Nat.succ.inj lengths) same
      have both : start * 256 + byte.toNat = start' * 256 + byte'.toNat := both
      have small := byte.toNat_lt
      have small' := byte'.toNat_lt
      have first : byte.toNat = byte'.toNat := by omega
      exact ⟨by omega, by rw [UInt8.toNat_inj.mp first, rest]⟩

/-- Different bytes have different texts. -/
theorem encode_inj {bytes bytes' : List UInt8} : encode bytes = encode bytes' ↔ bytes = bytes' := by
  constructor
  · intro same
    have texts : encodeFrom .none bytes = encodeFrom .none bytes' := String.ofList_inj.mp same
    have length := length_encodeFrom Pending.fits_none bytes
    have length' := length_encodeFrom Pending.fits_none bytes'
    have lengths : bytes.length = bytes'.length := by
      rw [texts, length'] at length
      unfold padding at length
      omega
    have read := digitsFrom_encodeFrom Pending.fits_none bytes 0
    rw [texts, digitsFrom_encodeFrom Pending.fits_none bytes' 0, lengths] at read
    have numbers := Nat.eq_of_mul_eq_mul_right (Nat.two_pow_pos _) read
    exact (bytesFrom_inj lengths numbers.symm).2
  · intro same
    rw [same]

end AgentAlgebra.Base32Hex
