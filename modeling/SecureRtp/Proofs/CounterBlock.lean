import Mathlib.Data.Nat.Bitwise
import SecureRtp.CounterBlock
import SecureRtp.Proofs.Alignment

/-!
# `SecureRtp.Proofs.CounterBlock`: counter blocks as numbers

As a number, a counter block is the exclusive or of three multiples of `2 ^ 16`: the salt
as far as it goes, the stream above the low 64 bits, and the number of the packet below
them (`value_counterBlock`). The low 16 bits are free, so the blocks of one packet are
counted there without a carry into the rest.

`counterBlock_add_inj` is what the whole construction is for. Under one salt, the block
and the count of it tell the stream, the rollover counter, the sequence number and the
count apart. The salt cancels, because it is put on by exclusive or on both sides.
-/

set_option autoImplicit false

namespace SecureRtp

/-- A number that is moved up without losing a bit off the top. -/
theorem toNat_ofNat_shiftLeft {v n : Nat} (hfits : v * 2 ^ n < 2 ^ 128) :
    (BitVec.ofNat 128 v <<< n).toNat = v * 2 ^ n := by
  have hv : v < 2 ^ 128 := Nat.lt_of_le_of_lt (Nat.le_mul_of_pos_right v (Nat.two_pow_pos n)) hfits
  rw [BitVec.toNat_shiftLeft, BitVec.toNat_ofNat, Nat.mod_eq_of_lt hv, Nat.shiftLeft_eq,
    Nat.mod_eq_of_lt hfits]

/-- A counter block as a number. -/
theorem value_counterBlock (stream rollovers : UInt32) (sequence : UInt16) (salt : Salt) :
    BigEndian.value (counterBlock stream rollovers sequence salt).toList
      = (BigEndian.value salt.toList * 2 ^ 16) ^^^ (stream.toNat * 2 ^ 64)
          ^^^ ((rollovers.toNat * 65536 + sequence.toNat) * 2 ^ 16) := by
  have hsalt := BigEndian.value_lt salt.toList
  have hstream := stream.toNat_lt
  have hrollovers := rollovers.toNat_lt
  have hsequence := sequence.toNat_lt
  have haligned : BigEndian.value (Octets.alignRight 16 salt.toList).toList
      = BigEndian.value salt.toList := BigEndian.value_alignRight _ (by simp)
  rw [Vector.length_toList] at hsalt
  -- Each of the three fits into 128 bits where it is moved to, so the moves are products.
  rw [← Block.toNat_toWord, counterBlock, Block.toWord_ofWord, BitVec.toNat_xor, BitVec.toNat_xor,
    Block.toWord, haligned, toNat_ofNat_shiftLeft (by omega), toNat_ofNat_shiftLeft (by omega),
    toNat_packetIndex, toNat_ofNat_shiftLeft (by omega)]

/-- The low 16 bits of a counter block are zero. -/
theorem value_counterBlock_mod (stream rollovers : UInt32) (sequence : UInt16) (salt : Salt) :
    BigEndian.value (counterBlock stream rollovers sequence salt).toList % 2 ^ 16 = 0 := by
  have hstream : stream.toNat * 2 ^ 64 % 2 ^ 16 = 0 := by omega
  rw [value_counterBlock, Nat.xor_mod_two_pow, Nat.xor_mod_two_pow, Nat.mul_mod_left,
    Nat.mul_mod_left, hstream]
  rfl

/-- Two numbers that do not overlap can be read off their exclusive or. -/
theorem xor_fields_inj {high high' low low' : Nat} (hlow : low < 2 ^ 64) (hlow' : low' < 2 ^ 64)
    (h : (high * 2 ^ 64) ^^^ low = (high' * 2 ^ 64) ^^^ low') : high = high' ∧ low = low' := by
  rw [BigEndian.mul_two_pow_xor hlow, BigEndian.mul_two_pow_xor hlow'] at h
  omega

/-- A counter block tells the stream and the number of the packet, under one salt. -/
theorem counterBlock_inj {stream stream' rollovers rollovers' : UInt32}
    {sequence sequence' : UInt16} {salt : Salt}
    (h : BigEndian.value (counterBlock stream rollovers sequence salt).toList
      = BigEndian.value (counterBlock stream' rollovers' sequence' salt).toList) :
    stream = stream' ∧ rollovers = rollovers' ∧ sequence = sequence' := by
  have hr := rollovers.toNat_lt
  have hr' := rollovers'.toNat_lt
  have hs := sequence.toNat_lt
  have hs' := sequence'.toNat_lt
  rw [value_counterBlock, value_counterBlock, Nat.xor_assoc, Nat.xor_assoc, Nat.xor_right_inj] at h
  -- The salt has cancelled. The stream begins at bit 64, where the number of the packet ends.
  obtain ⟨hstream, hindex⟩ := xor_fields_inj (by omega) (by omega) h
  refine ⟨UInt32.toNat_inj.mp hstream, UInt32.toNat_inj.mp ?_, UInt16.toNat_inj.mp ?_⟩
  · omega
  · omega

/-- A counter block and the count of its blocks tell all four apart, as long as the count
stays below `2 ^ 16`. -/
theorem counterBlock_add_inj {stream stream' rollovers rollovers' : UInt32}
    {sequence sequence' : UInt16} {salt : Salt} {j j' : Nat} (hj : j < 65536) (hj' : j' < 65536)
    (h : (BigEndian.value (counterBlock stream rollovers sequence salt).toList + j) % 2 ^ 128
      = (BigEndian.value (counterBlock stream' rollovers' sequence' salt).toList + j')
          % 2 ^ 128) :
    stream = stream' ∧ rollovers = rollovers' ∧ sequence = sequence' ∧ j = j' := by
  have hzero := value_counterBlock_mod stream rollovers sequence salt
  have hzero' := value_counterBlock_mod stream' rollovers' sequence' salt
  have hlt := BigEndian.value_lt (counterBlock stream rollovers sequence salt).toList
  have hlt' := BigEndian.value_lt (counterBlock stream' rollovers' sequence' salt).toList
  rw [Vector.length_toList] at hlt hlt'
  -- The counts fit into the low bits, so nothing is carried and nothing wraps around.
  have hcount : j = j' := by omega
  have hblock : BigEndian.value (counterBlock stream rollovers sequence salt).toList
      = BigEndian.value (counterBlock stream' rollovers' sequence' salt).toList := by omega
  obtain ⟨hstream, hrollovers, hsequence⟩ := counterBlock_inj hblock
  exact ⟨hstream, hrollovers, hsequence, hcount⟩

end SecureRtp
