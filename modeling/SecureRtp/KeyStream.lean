import SecureRtp.CounterMode

/-!
# `SecureRtp.KeyStream`: a stream that is consumed in portions

A key stream hands out the octets of a counter mode source in portions of
any length. Octets are drawn from the source in whole blocks only and at
most `capacity` at a time; what a portion leaves over waits in a buffer
for the next one, also in the middle of a block. A restart forgets the
buffer, so that the stream of a new starting block begins with its first
octet.

This is the key stream `AES128CM` with `new`, `reset`, `take` and `xor`.
`take` there fills an array in a loop. Here `piece` is what one turn of the
loop hands out, with `ready` for the refill in front of it, and `take` is
the loop. Where the octets are kept does not matter here; the arrays are the
matter of `SecureRtp.Proofs.Checked.KeyStream`.

* `length_piece` and `piece_pos`: one step of the loop hands out
  something whenever something is wanted, which is why the loop ends.
* `length_take` and `length_xor`: a portion has exactly the length that
  was asked for, and putting the stream onto data keeps the data's
  length.
-/

set_option autoImplicit false

namespace SecureRtp

/-- A counter mode source with the octets that have been drawn from it
last. -/
structure KeyStream where
  /-- Where the octets come from. -/
  source : CounterMode
  /-- The octets drawn last. -/
  buffer : Octets
  /-- How many octets of the buffer have been handed out. -/
  offset : Nat

namespace KeyStream

/-- The number of octets that are drawn or put onto data at a time. -/
def capacity : Nat := 128

/-- A key stream under a key from a starting block. -/
def new (key : Key) (start : Block) : KeyStream :=
  { source := CounterMode.new key start, buffer := [], offset := 0 }

/-- Begins again at another starting block, under the same key. -/
def reset (stream : KeyStream) (start : Block) : KeyStream :=
  { source := stream.source.restart start, buffer := [], offset := 0 }

/-- How many octets of the buffer are still to be handed out. -/
def available (stream : KeyStream) : Nat := stream.buffer.length - stream.offset

/-- How many octets to draw when `wanted` are missing: whole blocks, and
no more than the buffer takes. -/
def refillLength (wanted : Nat) : Nat := min capacity (16 * ((wanted + 15) / 16))

/-- Replaces the buffer by octets drawn from the source. -/
def refill (stream : KeyStream) (wanted : Nat) : KeyStream :=
  let drawn := stream.source.draw (refillLength wanted)
  { source := drawn.2, buffer := drawn.1, offset := 0 }

/-- Sees to it that the buffer is not used up. -/
def ready (stream : KeyStream) (wanted : Nat) : KeyStream :=
  if stream.available = 0 then stream.refill wanted else stream

/-- The next octets of the stream that are at hand without a further
refill, `wanted` at most. -/
def piece (stream : KeyStream) (wanted : Nat) : Octets × KeyStream :=
  let stream := stream.ready wanted
  let count := min stream.available wanted
  ((stream.buffer.drop stream.offset).take count, { stream with offset := stream.offset + count })

/-- Everything that a refill draws is still to be handed out. -/
theorem available_refill (stream : KeyStream) (wanted : Nat) :
    (stream.refill wanted).available = refillLength wanted := by
  simp [refill, available]

/-- Something is at hand after the refill, if anything is wanted. -/
theorem available_ready_pos (stream : KeyStream) (wanted : Nat) (h : 0 < wanted) :
    0 < (stream.ready wanted).available := by
  rw [ready]
  split
  · rw [available_refill, refillLength, capacity]
    omega
  · omega

/-- A piece is as long as what is at hand and what is wanted allow. -/
theorem length_piece (stream : KeyStream) (wanted : Nat) :
    (stream.piece wanted).1.length = min (stream.ready wanted).available wanted := by
  simp only [piece, List.length_take, List.length_drop]
  rw [available]
  omega

/-- A piece is never longer than what is wanted. -/
theorem length_piece_le (stream : KeyStream) (wanted : Nat) :
    (stream.piece wanted).1.length ≤ wanted := by
  rw [length_piece]
  omega

/-- No step of the loop is idle. -/
theorem piece_pos (stream : KeyStream) (wanted : Nat) (h : 0 < wanted) :
    0 < (stream.piece wanted).1.length := by
  have := stream.available_ready_pos wanted h
  rw [length_piece]
  omega

/-- The next `n` octets of the stream, piece by piece. -/
def take (stream : KeyStream) (n : Nat) : Octets × KeyStream :=
  if n = 0 then ([], stream) else
    let first := stream.piece n
    let others := first.2.take (n - first.1.length)
    (first.1 ++ others.1, others.2)
termination_by n
decreasing_by
  have := stream.piece_pos n (by omega)
  omega

/-- The data with the next octets of the stream put on, in portions of
`capacity` octets. -/
def xor (stream : KeyStream) (data : Octets) : Octets × KeyStream :=
  match data with
  | [] => ([], stream)
  | octet :: rest =>
    let chunk := (octet :: rest).take capacity
    let keys := stream.take chunk.length
    let others := keys.2.xor ((octet :: rest).drop capacity)
    (Octets.xor chunk keys.1 ++ others.1, others.2)
termination_by data.length
decreasing_by
  simp only [List.length_drop, List.length_cons, capacity]
  omega

/-! ### Lengths -/

@[simp] theorem length_take (stream : KeyStream) (n : Nat) : (stream.take n).1.length = n := by
  fun_induction take stream n with
  | case1 => rfl
  | case2 stream n _ first others ih =>
      have hle : first.1.length ≤ n := stream.length_piece_le n
      rw [List.length_append, ih]
      omega

@[simp] theorem length_xor (stream : KeyStream) (data : Octets) :
    (stream.xor data).1.length = data.length := by
  fun_induction xor stream data with
  | case1 => rfl
  | case2 stream octet rest chunk keys others ih =>
      have hchunk : chunk.length = min capacity (octet :: rest).length := List.length_take
      rw [List.length_append, ih, Octets.length_xor, length_take, List.length_drop]
      omega

end KeyStream

end SecureRtp
