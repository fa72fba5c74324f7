import SecureRtp.KeyStream
import SecureRtp.Proofs.Checked.Access
import SecureRtp.Proofs.KeyStream.Requests

/-!
# `SecureRtp.Proofs.Checked.KeyStream`: a key stream in an array of fixed size

A `KeyBuffer` keeps the octets that were drawn last in an array of 144 octets, with two
numbers: how many of them are still to be handed out, and where they begin. Nothing but
these numbers tells the octets apart that were left behind by earlier draws. The programs
here are written with the operations of `Checked`, so each part of the array, each copy and
each difference has to be right.

This is `AES128CM` step by step. `new` and `reset` have their names from there. Its `take` is
a loop over an array that is being filled, which is a `Filling`: `Filling.turn` is the body of
the loop, with `refill` for the branch where nothing is at hand, and `Filling.fill` repeats it.
`xorBy` is the loop of `xor` over the portions of the data, with the array that is used again
for each of them.

`KeyBuffer.stream` is the key stream that such a buffer stands for, and `KeyBuffer.Fits` is
the invariant that everything rests on: what is to be handed out ends where a draw ends, in
the first 128 octets of the array.

* `Filling.turn_eq`: a turn of the loop has no fault, and is one `KeyStream.piece`.
* `Filling.fill_eq`: the loop has no fault, comes to its end, and is `KeyStream.take`.
* `KeyBuffer.xor_eq`: putting the stream onto data has no fault, and is `KeyStream.xor`.
-/

set_option autoImplicit false

namespace SecureRtp

open Checked

/-- A key stream in an array of fixed size, as an `AES128CM` has it. -/
structure KeyBuffer where
  /-- Where the octets come from. -/
  source : CounterMode
  /-- The array that octets are drawn to. It has room for one block more than is drawn. -/
  memory : Vector UInt8 144
  /-- How many octets are still to be handed out. -/
  available : Nat
  /-- Where they begin. -/
  offset : Nat

namespace KeyBuffer

/-! ### The programs -/

/-- A buffer under a key from a starting block. -/
def new (key : Key) (start : Block) : KeyBuffer :=
  { source := CounterMode.new key start, memory := Vector.replicate 144 0, available := 0,
    offset := 0 }

/-- Begins again at another starting block. The array is left as it is. -/
def reset (buffer : KeyBuffer) (start : Block) : KeyBuffer :=
  { buffer with source := buffer.source.restart start, available := 0, offset := 0 }

/-- Draws whole blocks to the beginning of the array, by encrypting as many zeros with
`cipher_update`, which wants room for one block more than it is given. -/
def refill (buffer : KeyBuffer) (wanted : Nat) : Checked KeyBuffer := do
  let rounded ← add wanted 15
  let count := min KeyStream.capacity (16 * (rounded / 16))
  let input ← slice (Octets.zeros KeyStream.capacity) 0 count
  assert (input.length + 16 ≤ 144)
  let drawn := buffer.source.draw input.length
  let memory ← copyInto buffer.memory 0 input.length (Octets.xor input drawn.1)
  return { source := drawn.2, memory, available := input.length, offset := 0 }

/-- Sees to it that something is at hand. -/
def ready (buffer : KeyBuffer) (wanted : Nat) : Checked KeyBuffer :=
  if buffer.available = 0 then buffer.refill wanted else .ok buffer

end KeyBuffer

/-- An array that is being filled with a key stream. -/
structure Filling (n : Nat) where
  /-- The array. -/
  output : Vector UInt8 n
  /-- How many octets of it have been filled. -/
  done : Nat
  /-- What it is filled from. -/
  buffer : KeyBuffer

namespace Filling

variable {n : Nat}

/-- One turn of the loop of `take`: copies what is at hand and wanted. -/
def turn (filling : Filling n) : Checked (Filling n) := do
  let remaining ← sub n filling.done
  let buffer ← filling.buffer.ready remaining
  let count := min buffer.available remaining
  let stop ← add buffer.offset count
  let octets ← slice buffer.memory.toList buffer.offset stop
  let done ← add filling.done count
  let output ← copyInto filling.output filling.done done octets
  let available ← sub buffer.available count
  return { output, done, buffer := { buffer with available, offset := stop } }

/-- Turns until the array is full. A turn that fills nothing would be repeated for ever. -/
def fill (filling : Filling n) : Checked (Filling n) :=
  if filling.done < n then do
    let next ← filling.turn
    if filling.done < next.done then next.fill else .error .idle
  else .ok filling
termination_by n - filling.done

end Filling

namespace KeyBuffer

/-- Fills an array with the next octets of the stream. -/
def take {n : Nat} (buffer : KeyBuffer) (output : Vector UInt8 n) : Checked (Filling n) :=
  Filling.fill { output, done := 0, buffer }

/-- Puts the stream onto data, in portions of 128 octets. The octets of each portion are
handed out to the beginning of the same array. -/
def xorBy (room : Vector UInt8 128) (buffer : KeyBuffer) (data : Octets) :
    Checked (Octets × KeyBuffer) :=
  match data with
  | [] => .ok ([], buffer)
  | octet :: rest => do
    let chunk := (octet :: rest).take 128
    let keys ← front room chunk.length
    let filled ← buffer.take keys
    let room ← copyInto room 0 chunk.length filled.output.toList
    let others ← xorBy room filled.buffer ((octet :: rest).drop 128)
    return (Octets.xor chunk filled.output.toList ++ others.1, others.2)
termination_by data.length
decreasing_by
  simp only [List.length_drop, List.length_cons]
  omega

/-- Puts the stream onto data. -/
def xor (buffer : KeyBuffer) (data : Octets) : Checked (Octets × KeyBuffer) :=
  buffer.xorBy (Vector.replicate 128 0) data

/-! ### The key stream of a buffer -/

/-- The key stream that the buffer stands for. What is in the array behind the octets that
are still to be handed out was left behind by earlier draws. -/
def stream (buffer : KeyBuffer) : KeyStream where
  source := buffer.source
  buffer := buffer.memory.toList.take (buffer.offset + buffer.available)
  offset := buffer.offset

/-- What is to be handed out ends where a draw ends. -/
def Fits (buffer : KeyBuffer) : Prop := buffer.offset + buffer.available ≤ KeyStream.capacity

variable {buffer : KeyBuffer}

/-- A new buffer stands for a new key stream. Nothing of its array counts. -/
@[simp] theorem stream_new (key : Key) (start : Block) :
    (new key start).stream = KeyStream.new key start := rfl

/-- A buffer that begins again stands for the key stream that does. The octets that are left in
its array no longer count. -/
@[simp] theorem stream_reset (buffer : KeyBuffer) (start : Block) :
    (buffer.reset start).stream = buffer.stream.reset start := rfl

theorem fits_new (key : Key) (start : Block) : (new key start).Fits := Nat.zero_le _

theorem fits_reset (buffer : KeyBuffer) (start : Block) : (buffer.reset start).Fits :=
  Nat.zero_le _

/-- The part of the array that counts ends where the octets at hand end. The array is long enough
for all of it. -/
theorem Fits.length_buffer (h : buffer.Fits) :
    buffer.stream.buffer.length = buffer.offset + buffer.available := by
  rw [Fits, KeyStream.capacity] at h
  show (buffer.memory.toList.take (buffer.offset + buffer.available)).length = _
  rw [List.length_take_of_le]
  rw [Vector.length_toList]
  omega

/-- The buffer has as many octets at hand as the key stream that it stands for. -/
theorem Fits.available_stream (h : buffer.Fits) :
    buffer.stream.available = buffer.available := by
  rw [KeyStream.available, h.length_buffer]
  exact Nat.add_sub_cancel_left _ _

/-- A refill has room for what it draws. -/
theorem refill_eq (buffer : KeyBuffer) {wanted : Nat} (hlimit : wanted + 15 < indexLimit) :
    ∃ filled, buffer.refill wanted = .ok filled ∧
      filled.stream = buffer.stream.refill wanted ∧ filled.Fits := by
  let count := KeyStream.refillLength wanted
  have hcount : count ≤ 128 := Nat.min_le_left _ _
  have hinput : slice (Octets.zeros 128) 0 count = .ok (Octets.zeros count) := by
    have hpart := slice_eq (Octets.zeros 128) 0 count (by simpa)
    rwa [Nat.zero_add, List.drop_zero, Octets.zeros, List.take_replicate,
      Nat.min_eq_left hcount] at hpart
  -- What comes of encrypting zeros is the stream itself.
  have hdrawn := KeyStream.xor_zeros (buffer.source.draw count).1
  have hlength := buffer.source.length_draw count
  obtain ⟨memory, hcopy, hmemory⟩ := copyInto_eq buffer.memory 0
    (buffer.source.draw count).1 (by omega)
  rw [hlength] at hdrawn
  rw [hlength, Nat.zero_add] at hcopy hmemory
  refine ⟨{ source := (buffer.source.draw count).2, memory, available := count, offset := 0 },
    ?_, ?_, ?_⟩
  · show (add wanted 15 >>= fun rounded => _) = _
    rw [add_eq hlimit, ok_bind]
    show (slice (Octets.zeros 128) 0 count >>= fun input => _) = _
    rw [hinput, ok_bind, Octets.length_zeros, assert_eq (by omega), ok_bind]
    show (copyInto buffer.memory 0 count
      (Octets.xor (Octets.zeros count) (buffer.source.draw count).1) >>= fun memory => _) = _
    rw [hdrawn, hcopy]
    rfl
  · show (⟨_, memory.toList.take (0 + count), 0⟩ : KeyStream)
      = ⟨_, (buffer.source.draw count).1, 0⟩
    rw [hmemory, List.take_zero, List.nil_append, Nat.zero_add, List.take_left' hlength]
    rfl
  · rw [Fits, Nat.zero_add]
    exact hcount

/-- Seeing to it that something is at hand has no fault, with a refill or without one, and is
`KeyStream.ready`. -/
theorem Fits.ready_eq (h : buffer.Fits) (wanted : Nat) (hlimit : wanted + 15 < indexLimit) :
    ∃ filled, buffer.ready wanted = .ok filled ∧
      filled.stream = buffer.stream.ready wanted ∧ filled.Fits := by
  rw [ready, KeyStream.ready, h.available_stream]
  split
  · exact buffer.refill_eq hlimit
  · exact ⟨buffer, rfl, rfl, h⟩

/-- What is at hand can be read out of the array, and is what waits in the key stream. -/
theorem Fits.slice_memory (h : buffer.Fits) {count : Nat} (hcount : count ≤ buffer.available) :
    slice buffer.memory.toList buffer.offset (buffer.offset + count)
      = .ok ((buffer.stream.buffer.drop buffer.offset).take count) := by
  have hbound : buffer.offset + buffer.available ≤ 128 := h
  rw [slice_eq _ _ _ (by rw [Vector.length_toList]; omega)]
  congr 1
  show _ = ((buffer.memory.toList.take (buffer.offset + buffer.available)).drop _).take _
  rw [List.drop_take, List.take_take, Nat.add_sub_cancel_left, Nat.min_eq_left hcount]

/-- The buffer after `count` octets have been handed out. -/
def handOut (buffer : KeyBuffer) (count : Nat) : KeyBuffer :=
  { buffer with available := buffer.available - count, offset := buffer.offset + count }

/-- Handing out octets moves the place where those at hand begin, and not the place where they
end. -/
theorem Fits.handOut (h : buffer.Fits) {count : Nat} (hcount : count ≤ buffer.available) :
    (buffer.handOut count).Fits := by
  show buffer.offset + count + (buffer.available - count) ≤ KeyStream.capacity
  rwa [Nat.add_assoc, Nat.add_sub_cancel' hcount]

/-- A piece is what is at hand after the refill, if there has to be one. -/
theorem Fits.piece_eq (h : buffer.Fits) {stream : KeyStream} {wanted : Nat}
    (hready : buffer.stream = stream.ready wanted) :
    let count := min buffer.available wanted
    (stream.piece wanted).1 = (buffer.stream.buffer.drop buffer.offset).take count ∧
    (stream.piece wanted).2 = (buffer.handOut count).stream := by
  have hend : buffer.offset + min buffer.available wanted
      + (buffer.available - min buffer.available wanted) = buffer.offset + buffer.available := by
    omega
  have hoffset : buffer.stream.offset = buffer.offset := rfl
  simp only [KeyStream.piece, ← hready, h.available_stream, hoffset, true_and]
  simp only [KeyBuffer.stream, KeyBuffer.handOut, hend]

end KeyBuffer

/-! ### The loop -/

namespace Filling

variable {n : Nat}

/-- One turn hands out a piece of the stream. -/
theorem turn_eq {filling : Filling n} (hfits : filling.buffer.Fits)
    (hdone : filling.done ≤ n) (hlimit : n + 15 < indexLimit) :
    let piece := filling.buffer.stream.piece (n - filling.done)
    ∃ next, filling.turn = .ok next ∧ next.buffer.stream = piece.2 ∧ next.buffer.Fits ∧
      next.done = filling.done + piece.1.length ∧
      next.output.toList = filling.output.toList.take filling.done ++ piece.1
        ++ filling.output.toList.drop next.done := by
  intro piece
  obtain ⟨buffer, hready, hstream, hfilled⟩ :=
    hfits.ready_eq (n - filling.done) (by omega)
  -- From here on there is one number, how many octets the turn hands out.
  obtain ⟨hpiece, hrest⟩ := hfilled.piece_eq hstream
  have hlength : piece.1.length = min buffer.available (n - filling.done) := by
    rw [KeyStream.length_piece, ← hstream, hfilled.available_stream]
  generalize hcount : min buffer.available (n - filling.done) = count at hpiece hrest hlength
  have hat : count ≤ buffer.available := by omega
  have hslice := hfilled.slice_memory hat
  rw [← hpiece] at hslice
  -- Neither sum reaches the limit: the one stays in the array, the other in the portion.
  have hbound : buffer.offset + buffer.available ≤ 128 := hfilled
  have hindex : 128 < indexLimit := by decide
  have hstop : add buffer.offset count = .ok (buffer.offset + count) := add_eq (by omega)
  have hmoved : add filling.done count = .ok (filling.done + count) := add_eq (by omega)
  obtain ⟨output, hcopy, houtput⟩ := copyInto_eq filling.output filling.done piece.1
    (by omega)
  rw [hlength] at hcopy houtput
  refine ⟨{ output, done := filling.done + count, buffer := buffer.handOut count },
    ?_, hrest.symm, hfilled.handOut hat, by rw [hlength], houtput⟩
  simp only [turn, sub_eq hdone, ok_bind, hready, hcount, hstop, hslice, hmoved]
  rw [hcopy, ok_bind, sub_eq hat]
  rfl

/-- A turn that fills something is followed by the others. -/
theorem fill_of_turn {filling next : Filling n} (hturn : filling.turn = .ok next)
    (hdone : filling.done < n) (hprogress : filling.done < next.done) :
    filling.fill = next.fill := by
  rw [fill, if_pos hdone, hturn, ok_bind, if_pos hprogress]

/-- The loop fills the rest of the array with the next octets of the stream, and comes to its
end. -/
theorem fill_eq (filling : Filling n) (hfits : filling.buffer.Fits)
    (hdone : filling.done ≤ n) (hlimit : n + 15 < indexLimit) :
    let taken := filling.buffer.stream.take (n - filling.done)
    ∃ filled, filling.fill = .ok filled ∧ filled.buffer.stream = taken.2 ∧
      filled.buffer.Fits ∧
      filled.output.toList = filling.output.toList.take filling.done ++ taken.1 := by
  intro taken
  by_cases hfull : filling.done = n
  · have hnothing : taken = ([], filling.buffer.stream) := by
      show KeyStream.take _ _ = _
      rw [KeyStream.take, if_pos (by omega)]
    rw [fill, if_neg (by omega), hnothing]
    refine ⟨filling, rfl, rfl, hfits, ?_⟩
    rw [List.append_nil, List.take_of_length_le (by rw [Vector.length_toList]; omega)]
  · let piece := filling.buffer.stream.piece (n - filling.done)
    have hpos : 0 < piece.1.length := KeyStream.piece_pos _ _ (by omega)
    have hle : piece.1.length ≤ n - filling.done := KeyStream.length_piece_le _ _
    obtain ⟨next, hturn, hstream, hnext, (hmoved : next.done = filling.done + piece.1.length),
      houtput⟩ := turn_eq hfits hdone hlimit
    -- The turn has filled something, so fewer octets are left for the turns after it.
    have hfewer : n - next.done < n - filling.done := by omega
    obtain ⟨filled, hfill, hstream', hfilled, houtput'⟩ := next.fill_eq hnext (by omega) hlimit
    have hrest : n - next.done = n - filling.done - piece.1.length := by omega
    have htaken : taken = (piece.1 ++ (next.buffer.stream.take (n - next.done)).1,
        (next.buffer.stream.take (n - next.done)).2) := by
      show KeyStream.take _ _ = _
      rw [KeyStream.take, if_neg (by omega), hstream, hrest]
    have hcut : (filling.output.toList.take filling.done ++ piece.1).length = next.done := by
      rw [List.length_append, List.length_take, Vector.length_toList]
      omega
    refine ⟨filled, ?_, ?_, hfilled, ?_⟩
    · rw [fill_of_turn hturn (by omega) (by omega), hfill]
    · rw [hstream', htaken]
    · rw [houtput', houtput, List.take_left' hcut, htaken, List.append_assoc]
termination_by n - filling.done

end Filling

namespace KeyBuffer

variable {n : Nat} {buffer : KeyBuffer}

/-- Filling an array from its beginning has no fault, and is `KeyStream.take` for as many octets
as the array has. -/
theorem Fits.take_eq (h : buffer.Fits) (output : Vector UInt8 n) (hlimit : n + 15 < indexLimit) :
    ∃ filled, buffer.take output = .ok filled ∧
      filled.output.toList = (buffer.stream.take n).1 ∧
      filled.buffer.stream = (buffer.stream.take n).2 ∧ filled.buffer.Fits := by
  obtain ⟨filled, hfill, hstream, hfits, houtput⟩ :=
    Filling.fill_eq { output, done := 0, buffer } h (Nat.zero_le n) hlimit
  exact ⟨filled, hfill, houtput, hstream, hfits⟩

/-- Putting the stream onto data has no fault, in whatever room it is done. The room keeps octets
of the portion before, so the statement is made for any content of it, and the induction is on the
data that is left. -/
theorem Fits.xorBy_eq {buffer : KeyBuffer} (h : buffer.Fits) (room : Vector UInt8 128)
    (data : Octets) :
    ∃ covered, buffer.xorBy room data = .ok covered ∧
      covered.1 = (buffer.stream.xor data).1 ∧
      covered.2.stream = (buffer.stream.xor data).2 ∧ covered.2.Fits := by
  cases data with
  | nil =>
      rw [xorBy, KeyStream.xor]
      exact ⟨_, rfl, rfl, rfl, h⟩
  | cons octet rest =>
      let chunk := (octet :: rest).take 128
      have hchunk : chunk.length ≤ 128 := List.length_take_le _ _
      have hlimit : 143 < indexLimit := by decide
      obtain ⟨keys, hfront⟩ := front_eq room hchunk
      obtain ⟨filled, htake, houtput, hstream, hfits⟩ := h.take_eq keys (by omega)
      obtain ⟨room', hcopy, -⟩ := copyInto_eq room 0 filled.output.toList
        (by rwa [Vector.length_toList, Nat.zero_add])
      rw [Vector.length_toList, Nat.zero_add] at hcopy
      -- The rest of the data is shorter. It finds the octets of this portion in the room.
      obtain ⟨others, hothers, hdata, hstream', hfits'⟩ :=
        hfits.xorBy_eq room' ((octet :: rest).drop 128)
      have hxor : buffer.stream.xor (octet :: rest)
          = (Octets.xor chunk filled.output.toList ++ others.1, others.2.stream) := by
        rw [KeyStream.xor, hdata, hstream', houtput, hstream]
        rfl
      refine ⟨(Octets.xor chunk filled.output.toList ++ others.1, others.2), ?_, ?_, ?_, hfits'⟩
      · rw [xorBy]
        show (front room chunk.length >>= fun keys => _) = _
        rw [hfront, ok_bind, htake, ok_bind, hcopy, ok_bind, hothers]
        rfl
      · rw [hxor]
      · rw [hxor]
termination_by data.length
decreasing_by
  simp only [List.length_drop, List.length_cons]
  omega

/-- Putting the stream onto data has no fault, whatever the length of the data is. -/
theorem Fits.xor_eq (h : buffer.Fits) (data : Octets) :
    ∃ covered, buffer.xor data = .ok covered ∧
      covered.1 = (buffer.stream.xor data).1 ∧
      covered.2.stream = (buffer.stream.xor data).2 ∧ covered.2.Fits :=
  h.xorBy_eq _ data

end KeyBuffer

end SecureRtp
