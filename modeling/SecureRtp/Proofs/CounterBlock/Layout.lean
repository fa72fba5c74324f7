import SecureRtp.Proofs.CounterBlock
import SecureRtp.Proofs.KeyStream.Blocks

/-!
# `SecureRtp.Proofs.CounterBlock.Layout`: counter blocks octet by octet

A counter block is computed with numbers of 128 bits that are moved up and added without
carry. This module says which octets come out. `fieldOctets` lays the stream, the rollover
counter and the sequence number side by side, behind four zeros; the salt is put onto these
fourteen octets, and the two that are left are zero.

Both are the same number, which is how the proof goes (`value_fieldOctets`): what is moved
up by whole octets is a string with zeros behind it, and the fields do not overlap, so that
adding them without carry is putting them side by side.

Reading a block is the same in reverse. `fieldsOf` takes the salt off and finds the fields
at their places, `saltOf` takes the fields off and finds the salt, and counting the blocks
of a packet touches nothing but the last two octets (`toList_blockAfter_counterBlock`).
-/

set_option autoImplicit false

namespace SecureRtp

/-- What a counter block holds besides the salt, in front of the two octets that count
blocks. -/
def fieldOctets (stream rollovers : UInt32) (sequence : UInt16) : Octets :=
  Octets.zeros 4 ++ (BigEndian.encode 4 stream.toNat).toList
    ++ (BigEndian.encode 4 rollovers.toNat).toList ++ (BigEndian.encode 2 sequence.toNat).toList

/-- The stream, the rollover counter and the sequence number that a counter block was made
for. -/
def fieldsOf (block : Block) (salt : Salt) : UInt32 × UInt32 × UInt16 :=
  let fields := Octets.xor (block.toList.take 14) salt.toList
  (UInt32.ofNat (BigEndian.value ((fields.drop 4).take 4)),
    UInt32.ofNat (BigEndian.value ((fields.drop 8).take 4)),
    UInt16.ofNat (BigEndian.value ((fields.drop 12).take 2)))

/-- The salt that a counter block was made with. -/
def saltOf (block : Block) (stream rollovers : UInt32) (sequence : UInt16) : Octets :=
  Octets.xor (block.toList.take 14) (fieldOctets stream rollovers sequence)

variable (stream rollovers : UInt32) (sequence : UInt16) (salt : Salt)

/-! ### The octets of a block -/

@[simp] theorem length_fieldOctets : (fieldOctets stream rollovers sequence).length = 14 := by
  simp [fieldOctets]

/-- Side by side, the fields are the sum of what each is worth at its place. -/
theorem value_fieldOctets :
    BigEndian.value (fieldOctets stream rollovers sequence)
      = stream.toNat * 2 ^ 48 + (rollovers.toNat * 65536 + sequence.toNat) := by
  simp only [fieldOctets, BigEndian.value_append, BigEndian.value_zeros,
    BigEndian.value_encode_uint32, BigEndian.value_encode_uint16, Vector.length_toList]
  omega

/-- A block is the fields with the salt on them, and two zeros. -/
theorem toList_counterBlock :
    (counterBlock stream rollovers sequence salt).toList
      = Octets.xor (fieldOctets stream rollovers sequence) salt.toList ++ Octets.zeros 2 := by
  have hindex : rollovers.toNat * 65536 + sequence.toNat < 2 ^ 48 := by
    have := rollovers.toNat_lt
    have := sequence.toNat_lt
    omega
  -- The number of the packet stands below the stream, so the two do not overlap.
  have hfields : (stream.toNat * 2 ^ 48) ^^^ (rollovers.toNat * 65536 + sequence.toNat)
      = stream.toNat * 2 ^ 48 + (rollovers.toNat * 65536 + sequence.toNat) :=
    BigEndian.mul_two_pow_xor hindex
  refine BigEndian.value_inj (by simp) ?_
  rw [value_counterBlock, BigEndian.value_append, BigEndian.value_zeros, Octets.length_zeros,
    BigEndian.value_xor (by simp), value_fieldOctets]
  have hstream : stream.toNat * 2 ^ 64 = stream.toNat * 2 ^ 48 * 2 ^ 16 := by omega
  have hwidth : 256 ^ 2 = 2 ^ 16 := by decide
  rw [hstream, hwidth, ← BigEndian.xor_mul_two_pow, ← BigEndian.xor_mul_two_pow, ← hfields,
    Nat.xor_assoc, Nat.xor_comm, Nat.add_zero]

/-- The first fourteen octets of a block are the fields with the salt on them. -/
theorem take_counterBlock :
    (counterBlock stream rollovers sequence salt).toList.take 14
      = Octets.xor (fieldOctets stream rollovers sequence) salt.toList := by
  rw [toList_counterBlock]
  exact List.take_left' (by simp)

/-! ### Reading a block -/

/-- Who has the salt finds the three fields in the block, each with the number that was put in. -/
theorem fieldsOf_counterBlock :
    fieldsOf (counterBlock stream rollovers sequence salt) salt
      = (stream, rollovers, sequence) := by
  rw [fieldsOf, take_counterBlock, Octets.xor_xor_cancel _ _ (by simp)]
  -- Each field is found where it was put.
  have hstream : ((fieldOctets stream rollovers sequence).drop 4).take 4
      = (BigEndian.encode 4 stream.toNat).toList := rfl
  have hrollovers : ((fieldOctets stream rollovers sequence).drop 8).take 4
      = (BigEndian.encode 4 rollovers.toNat).toList := rfl
  have hsequence : ((fieldOctets stream rollovers sequence).drop 12).take 2
      = (BigEndian.encode 2 sequence.toNat).toList := rfl
  simp only [hstream, hrollovers, hsequence, BigEndian.value_encode_uint32,
    BigEndian.value_encode_uint16, UInt32.ofNat_toNat, UInt16.ofNat_toNat]

/-- Who has the three fields finds the salt in the block, every bit of it. -/
theorem saltOf_counterBlock :
    saltOf (counterBlock stream rollovers sequence salt) stream rollovers sequence
      = salt.toList := by
  rw [saltOf, take_counterBlock, Octets.xor_comm (fieldOctets _ _ _),
    Octets.xor_xor_cancel _ _ (by simp)]

/-! ### Counting blocks -/

/-- The count of a block stands in the last two octets, as long as it fits there. -/
theorem toList_blockAfter_counterBlock {j : Nat} (hj : j < 65536) :
    (blockAfter (counterBlock stream rollovers sequence salt) j).toList
      = (counterBlock stream rollovers sequence salt).toList.take 14
          ++ (BigEndian.encode 2 j).toList := by
  have hcount : j % 256 ^ 2 = j := Nat.mod_eq_of_lt hj
  have hlt := BigEndian.value_lt (counterBlock stream rollovers sequence salt).toList
  -- The block itself is a multiple of `2 ^ 16`, which leaves room for the count.
  have hblock := congrArg BigEndian.value (toList_counterBlock stream rollovers sequence salt)
  rw [BigEndian.value_append, BigEndian.value_zeros, Octets.length_zeros] at hblock
  rw [Vector.length_toList] at hlt
  refine BigEndian.value_inj (by simp) ?_
  rw [take_counterBlock, value_blockAfter, BigEndian.value_append, BigEndian.value_encode,
    Vector.length_toList, hcount]
  omega

/-- A counter block in three forms. As octets it is the fields side by side with the salt on
them, and two zeros behind; as a number it is the salt, the stream and the number of the
packet, each at its place, added without carry, and the block is that number written with
sixteen octets. Nothing is lost in it: the fields are found again with the salt, and the
salt with the fields. The blocks of one packet differ in the last two octets only, which
hold their count. -/
theorem counterBlock_exact :
    let block := counterBlock stream rollovers sequence salt
    let number := (BigEndian.value salt.toList * 2 ^ 16) ^^^ (stream.toNat * 2 ^ 64)
      ^^^ ((rollovers.toNat * 2 ^ 16 + sequence.toNat) * 2 ^ 16)
    block.toList
      = Octets.xor (fieldOctets stream rollovers sequence) salt.toList ++ Octets.zeros 2 ∧
    BigEndian.value block.toList = number ∧
    block = BigEndian.encode 16 number ∧
    fieldsOf block salt = (stream, rollovers, sequence) ∧
    saltOf block stream rollovers sequence = salt.toList ∧
    ∀ j < 65536, (blockAfter block j).toList
      = block.toList.take 14 ++ (BigEndian.encode 2 j).toList := by
  intro block number
  have hnumber : BigEndian.value block.toList = number :=
    value_counterBlock stream rollovers sequence salt
  refine ⟨toList_counterBlock stream rollovers sequence salt, hnumber, ?_,
    fieldsOf_counterBlock stream rollovers sequence salt,
    saltOf_counterBlock stream rollovers sequence salt, ?_⟩
  · rw [← hnumber, BigEndian.encode_value]
  · intro j hj
    exact toList_blockAfter_counterBlock stream rollovers sequence salt hj

/-- Fields whose octets are the numbers from one to ten under a salt of ones, and the block
with the count 258. -/
theorem counterBlock_exact_salt_of_ones :
    let block := counterBlock 0x01020304 0x05060708 0x090a (Vector.replicate 14 0xff)
    block.toList = [0xff, 0xff, 0xff, 0xff, 0xfe, 0xfd, 0xfc, 0xfb, 0xfa, 0xf9, 0xf8, 0xf7,
      0xf6, 0xf5, 0, 0] ∧
    258 < 65536 ∧
    (blockAfter block 258).toList = [0xff, 0xff, 0xff, 0xff, 0xfe, 0xfd, 0xfc, 0xfb, 0xfa,
      0xf9, 0xf8, 0xf7, 0xf6, 0xf5, 1, 2] := by
  intro block
  obtain ⟨hblock, -, -, -, -, hcount⟩ :=
    counterBlock_exact 0x01020304 0x05060708 0x090a (Vector.replicate 14 0xff)
  have hoctets : block.toList = [0xff, 0xff, 0xff, 0xff, 0xfe, 0xfd, 0xfc, 0xfb, 0xfa, 0xf9,
      0xf8, 0xf7, 0xf6, 0xf5, 0, 0] := by
    rw [hblock]
    decide
  refine ⟨hoctets, by decide, ?_⟩
  rw [hcount 258 (by decide), hoctets]
  decide

end SecureRtp
