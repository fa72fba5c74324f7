import Mathlib.Data.Set.Basic
import SecureRtp.Proofs.KeyStream.Position

/-!
# `SecureRtp.Proofs.KeyStream.Blocks`: what the cipher is given to encrypt

A counter mode source draws whole blocks, so how far it has been drawn since it began
says which blocks the cipher was given. `CounterMode.inputs` is the set of them.

A key stream draws ahead of what it hands out, but never by a whole block
(`available_piece_lt` is the step of the loop). So what the cipher was given is exactly
what was used: `KeyStream.At.inputs_eq` says that each block has an octet that was handed
out, and each octet that was handed out is of one of the blocks.
-/

set_option autoImplicit false

namespace SecureRtp

/-- Block number `j` from a starting block on, modulo `2 ^ 128`. -/
def blockAfter (start : Block) (j : Nat) : Block :=
  BigEndian.encode 16 ((BigEndian.value start.toList + j) % 2 ^ 128)

/-- The number of the block `j` places on is `j` more than that of the starting block, modulo
`2 ^ 128`. -/
theorem value_blockAfter (start : Block) (j : Nat) :
    BigEndian.value (blockAfter start j).toList
      = (BigEndian.value start.toList + j) % 2 ^ 128 := by
  have hwidth : 256 ^ 16 = 2 ^ 128 := by decide
  rw [blockAfter, BigEndian.value_encode, hwidth, Nat.mod_mod]

/-- An octet of the stream is one of the block that its position lies in. -/
theorem getElem_streamOctets (key : Key) (start : Block) {n k : Nat}
    (hk : k < (streamOctets key start 0 n).length) :
    (streamOctets key start 0 n)[k]
      = (Aes.encrypt key (blockAfter start (k / 16))).get (Fin.ofNat 16 k) := by
  simp only [streamOctets, List.getElem_map, List.getElem_range', Nat.one_mul, Nat.zero_add]
  rfl

/-- The blocks that the cipher was given since the source began at its starting block. -/
def CounterMode.inputs (source : CounterMode) : Set Block :=
  {block | ∃ j, 16 * j < source.drawn ∧ block = blockAfter source.start j}

namespace KeyStream

variable {stream : KeyStream}

/-! ### Less than a block is left over -/

/-- A piece leaves less than a block, if no more was left before. Either the buffer was
filled up for what is wanted, which takes less than a block in excess, or it only gets
shorter. -/
theorem available_piece_lt (h : stream.available < 16) (wanted : Nat) :
    (stream.piece wanted).2.available < 16 := by
  show (stream.ready wanted).buffer.length
    - ((stream.ready wanted).offset + min (stream.ready wanted).available wanted) < 16
  rw [Nat.sub_add_eq, ← available, ready]
  split
  · rw [available_refill, refillLength, capacity]
    omega
  · omega

/-- A portion leaves less than a block, if no more was left before. It is one piece after
another. -/
theorem available_take_lt (h : stream.available < 16) (n : Nat) :
    (stream.take n).2.available < 16 := by
  fun_induction KeyStream.take stream n with
  | case1 => exact h
  | case2 stream n _ first others ih => exact ih (available_piece_lt h n)

/-- Putting the stream onto data leaves less than a block, if no more was left before. It is one
portion after another. -/
theorem available_xor_lt (h : stream.available < 16) (data : Octets) :
    (stream.xor data).2.available < 16 := by
  fun_induction KeyStream.xor stream data with
  | case1 => exact h
  | case2 stream octet rest chunk keys others ih => exact ih (available_take_lt h chunk.length)

/-! ### The blocks in use -/

variable {key : Key} {start : Block} {p : Nat}

/-- The source stands at the end of the block that the position lies in. -/
theorem At.drawn_eq (h : stream.At key start p) (hleft : stream.available < 16) :
    stream.source.drawn = 16 * ((p + 15) / 16) := by
  have haligned := h.aligned
  rw [h.source]
  show p + stream.available = 16 * ((p + 15) / 16)
  omega

/-- The cipher was given the blocks of the octets that were handed out, and no others. -/
theorem At.inputs_eq (h : stream.At key start p) (hleft : stream.available < 16) :
    stream.source.inputs = {block | ∃ k < p, block = blockAfter start (k / 16)} := by
  have hstart : stream.source.start = start := by rw [h.source]
  ext block
  rw [CounterMode.inputs, h.drawn_eq hleft, hstart]
  constructor
  · rintro ⟨j, hj, rfl⟩
    -- The first octet of the block.
    exact ⟨16 * j, by omega, by rw [Nat.mul_div_cancel_left j (by decide)]⟩
  · rintro ⟨k, hk, rfl⟩
    exact ⟨k / 16, by omega, rfl⟩

end KeyStream

end SecureRtp
