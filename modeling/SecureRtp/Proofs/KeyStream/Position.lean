import SecureRtp.KeyStream
import SecureRtp.Octets.BigEndian.Lemmas

/-!
# `SecureRtp.Proofs.KeyStream.Position`: where a key stream stands

`streamOctet` is the reference: the octet at a position of the stream that a
key makes from a starting block. It takes the block as a number of 128 bits,
adds the number of the block that the position lies in, and encrypts. It knows
nothing of buffers and draws.

`KeyStream.At` says where a key stream stands: so many octets of the stream
have been handed out, the buffer holds the next ones, and the source has been
drawn as far as the buffer reaches, to the end of a block. Each operation of
the key stream moves it on, and hands out the octets in between.

* `KeyStream.At.piece` is the step of the loop: what it hands out is the part
  of the stream at the position, whether the buffer was refilled or not.
* `KeyStream.At.take` and `KeyStream.At.xor` are the runs of the two loops.
* `KeyStream.At.reset`: a restart leads to the position zero from anywhere.
-/

set_option autoImplicit false

namespace SecureRtp

/-! ### The reference -/

/-- The octet at the position `p` of the stream that a key makes from a starting
block. Blocks are counted from the starting block on, modulo `2 ^ 128`. -/
def streamOctet (key : Key) (start : Block) (p : Nat) : UInt8 :=
  (Aes.encrypt key
    (BigEndian.encode 16 ((BigEndian.value start.toList + p / 16) % 2 ^ 128))).get
      (Fin.ofNat 16 p)

/-- The `count` octets of the stream from the position `first`. -/
def streamOctets (key : Key) (start : Block) (first count : Nat) : Octets :=
  (List.range' first count).map (streamOctet key start)

@[simp] theorem length_streamOctets (key : Key) (start : Block) (first count : Nat) :
    (streamOctets key start first count).length = count := by
  simp [streamOctets]

/-- The block after `j` others, as a number. -/
theorem ofWord_add_ofNat (start : Block) (j : Nat) :
    Block.ofWord (start.toWord + BitVec.ofNat 128 j)
      = BigEndian.encode 16 ((BigEndian.value start.toList + j) % 2 ^ 128) := by
  rw [Block.ofWord, BitVec.toNat_add, Block.toNat_toWord, BitVec.toNat_ofNat, Nat.add_mod_mod]

/-- A counter mode source makes the reference stream of its key and starting
block. How much of it has been drawn does not matter. -/
theorem octets_eq_streamOctets (key : Key) (start : Block) (drawn first count : Nat) :
    ({ schedule := Aes.expand key, start, drawn } : CounterMode).octets first count
      = streamOctets key start first count := by
  refine List.map_congr_left fun p _ => ?_
  rw [CounterMode.octet, CounterMode.block]
  simp only [ofWord_add_ofNat]
  rfl

/-- Neighbouring parts of the stream join. -/
theorem streamOctets_append (key : Key) (start : Block) (first m n : Nat) :
    streamOctets key start first m ++ streamOctets key start (first + m) n
      = streamOctets key start first (m + n) := by
  rw [streamOctets, streamOctets, streamOctets, ← List.map_append, List.range'_append_1]

/-- The beginning of a part of the stream. -/
theorem take_streamOctets (key : Key) (start : Block) (first : Nat) {n count : Nat}
    (h : n ≤ count) :
    (streamOctets key start first count).take n = streamOctets key start first n := by
  obtain ⟨rest, rfl⟩ := Nat.exists_eq_add_of_le h
  rw [← streamOctets_append]
  exact List.take_left' (length_streamOctets key start first n)

/-- The end of a part of the stream. -/
theorem drop_streamOctets (key : Key) (start : Block) (first : Nat) {n count : Nat}
    (h : n ≤ count) :
    (streamOctets key start first count).drop n
      = streamOctets key start (first + n) (count - n) := by
  obtain ⟨rest, rfl⟩ := Nat.exists_eq_add_of_le h
  rw [← streamOctets_append, Nat.add_sub_cancel_left]
  exact List.drop_left' (length_streamOctets key start first n)

namespace KeyStream

/-! ### The position -/

/-- The key stream has handed out `p` octets of the stream of `key` from
`start`. -/
structure At (stream : KeyStream) (key : Key) (start : Block) (p : Nat) : Prop where
  /-- The source has been drawn as far as the buffer reaches. -/
  source : stream.source
    = { schedule := Aes.expand key, start, drawn := p + stream.available }
  /-- What is left in the buffer is what comes next. -/
  buffer : stream.buffer.drop stream.offset = streamOctets key start p stream.available
  /-- Draws end where a block ends. -/
  aligned : 16 ∣ p + stream.available
  /-- No more than the buffer holds has been handed out of it. -/
  offset_le : stream.offset ≤ stream.buffer.length
  /-- The buffer is never longer than one draw. -/
  fits : stream.buffer.length ≤ capacity

/-- A new key stream has handed out nothing. -/
theorem At.new (key : Key) (start : Block) : (KeyStream.new key start).At key start 0 where
  source := rfl
  buffer := rfl
  aligned := Nat.dvd_zero 16
  offset_le := Nat.le_refl 0
  fits := Nat.zero_le _

variable {stream : KeyStream} {key : Key} {start : Block} {p : Nat}

/-- A restart leads to the beginning of the stream from the new block. -/
theorem At.reset (h : stream.At key start p) (start' : Block) :
    (stream.reset start').At key start' 0 where
  source := by
    rw [KeyStream.reset, CounterMode.restart, h.source]
    rfl
  buffer := rfl
  aligned := by simp [KeyStream.reset, available]
  offset_le := Nat.le_refl 0
  fits := Nat.zero_le _

/-- A restarted key stream is a new one. Of what was before, nothing stays but the key. -/
theorem At.reset_eq (h : stream.At key start p) (start' : Block) :
    stream.reset start' = KeyStream.new key start' := by
  rw [KeyStream.reset, h.source]
  rfl

/-- A refill of a buffer that is used up does not move the position. -/
theorem At.refill (h : stream.At key start p) (hempty : stream.available = 0) (wanted : Nat) :
    (stream.refill wanted).At key start p := by
  -- With an empty buffer the source stands at the position itself, where a block ends.
  have hsource := h.source
  have haligned := h.aligned
  rw [hempty, Nat.add_zero] at hsource haligned
  have hdrawn : (stream.source.draw (refillLength wanted)).1
      = streamOctets key start p (refillLength wanted) := by
    rw [CounterMode.draw_fst, hsource, octets_eq_streamOctets]
  refine ⟨?_, ?_, ?_, ?_, ?_⟩
  · rw [available_refill, KeyStream.refill]
    simp only [CounterMode.draw, hsource]
  · rw [available_refill, ← hdrawn]
    rfl
  · rw [available_refill, refillLength, capacity]
    omega
  · exact Nat.zero_le _
  · show (stream.source.draw (refillLength wanted)).1.length ≤ capacity
    rw [CounterMode.length_draw, refillLength]
    exact Nat.min_le_left _ _

/-- The buffer is refilled only when it is used up. -/
theorem At.ready (h : stream.At key start p) (wanted : Nat) :
    (stream.ready wanted).At key start p := by
  rw [KeyStream.ready]
  split
  · rename_i hempty
    exact h.refill hempty wanted
  · exact h

/-- One step of the loop hands out the part of the stream at the position and
moves to its end. -/
theorem At.piece (h : stream.At key start p) (wanted : Nat) :
    (stream.piece wanted).1 = streamOctets key start p (stream.piece wanted).1.length ∧
    (stream.piece wanted).2.At key start (p + (stream.piece wanted).1.length) := by
  -- Only that the stream is ready at the position counts from here on, and not whether it
  -- had to be refilled for that.
  have hready := h.ready wanted
  rw [length_piece]
  simp only [KeyStream.piece]
  generalize stream.ready wanted = ready at hready
  have hcount : min ready.available wanted ≤ ready.available := Nat.min_le_left _ _
  generalize min ready.available wanted = count at hcount
  have hle := hready.offset_le
  -- What stays behind in the buffer.
  have hleft : KeyStream.available { ready with offset := ready.offset + count }
      = ready.available - count := Nat.sub_add_eq _ _ _
  have hend : p + count + (ready.available - count) = p + ready.available := by omega
  refine ⟨?_, ⟨?_, ?_, ?_, ?_, hready.fits⟩⟩
  · rw [hready.buffer]
    exact take_streamOctets key start p hcount
  · rw [hleft, hend]
    exact hready.source
  · rw [hleft, ← List.drop_drop, hready.buffer]
    exact drop_streamOctets key start p hcount
  · rw [hleft, hend]
    exact hready.aligned
  · show ready.offset + count ≤ ready.buffer.length
    rw [KeyStream.available] at hcount
    omega

/-- A portion is the part of the stream at the position. -/
theorem At.take (h : stream.At key start p) (n : Nat) :
    (stream.take n).1 = streamOctets key start p n ∧
    (stream.take n).2.At key start (p + n) := by
  fun_induction KeyStream.take stream n generalizing p with
  | case1 => exact ⟨rfl, h⟩
  | case2 stream n _ first others =>
      -- A piece, and the rest from where the piece ended.
      rename_i ih
      obtain ⟨hfirst, hmoved⟩ := h.piece n
      obtain ⟨hothers, hend⟩ := ih hmoved
      have hle : first.1.length ≤ n := stream.length_piece_le n
      have hsum : first.1.length + (n - first.1.length) = n := by omega
      refine ⟨?_, ?_⟩
      · calc first.1 ++ others.1
            = streamOctets key start p first.1.length
                ++ streamOctets key start (p + first.1.length) (n - first.1.length) := by
              rw [← hfirst, ← hothers]
          _ = streamOctets key start p n := by
              rw [streamOctets_append, hsum]
      · rwa [Nat.add_assoc, hsum] at hend

/-- Data is covered by the part of the stream at the position. -/
theorem At.xor (h : stream.At key start p) (data : Octets) :
    (stream.xor data).1 = Octets.xor data (streamOctets key start p data.length) ∧
    (stream.xor data).2.At key start (p + data.length) := by
  fun_induction KeyStream.xor stream data generalizing p with
  | case1 => exact ⟨rfl, h⟩
  | case2 stream octet rest chunk keys others =>
      -- A chunk uses as much of the stream as it is long, so the next one goes on behind it.
      rename_i ih
      obtain ⟨hkeys, hmoved⟩ := h.take chunk.length
      obtain ⟨hothers, hend⟩ := ih hmoved
      have hsplit : chunk ++ (octet :: rest).drop capacity = octet :: rest :=
        List.take_append_drop capacity (octet :: rest)
      have hsum : chunk.length + ((octet :: rest).drop capacity).length
          = (octet :: rest).length := by
        rw [← List.length_append, hsplit]
      refine ⟨?_, ?_⟩
      · calc Octets.xor chunk keys.1 ++ others.1
            = Octets.xor (chunk ++ (octet :: rest).drop capacity)
                (streamOctets key start p chunk.length
                  ++ streamOctets key start (p + chunk.length)
                    ((octet :: rest).drop capacity).length) := by
              rw [Octets.xor_append _ _ _ _ (by rw [length_streamOctets]), ← hkeys, ← hothers]
          _ = Octets.xor (octet :: rest) (streamOctets key start p (octet :: rest).length) := by
              rw [streamOctets_append, hsplit, hsum]
      · rwa [Nat.add_assoc, hsum] at hend

end KeyStream

end SecureRtp
