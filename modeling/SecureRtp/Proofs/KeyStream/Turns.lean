import SecureRtp.Proofs.KeyStream.Blocks
import SecureRtp.Proofs.KeyStream.Requests

/-!
# `SecureRtp.Proofs.KeyStream.Turns`: the loop, turn by turn

A portion is handed out by a loop. `KeyStream.turn` is one turn of it, and `KeyStream.turns`
is how far it has come after some of them: the octets handed out so far, and the key stream.
The loop is looked at from the inside here, where a buffer may be full, used up in part or
used up whole.

`KeyStream.Buffered` is what has to hold there. Four numbers hang together: how many octets
were drawn from the cipher since it began, how many of them were handed out, how many wait,
and where in the buffer these begin.

* `At.turn` is the step and `At.turns` the run: every turn hands out the next part of the
  reference stream.
* `finish_turns`: what is still to be done after some turns comes to the whole portion.
  `lt_length_turn`: no turn is idle. Together they say that the loop comes to its end, and
  that the end is `KeyStream.take` (`take_eq_turns`).
* `xor_eq_takes`: to put the stream onto data is to take portions of at most 128 octets, so
  there is no other loop to look at.
* `turns_keep_whole_blocks` is all of it, for a key stream that was asked anything before.
-/

set_option autoImplicit false

namespace SecureRtp

namespace KeyStream

/-- What was drawn and what waits when `p` octets have been handed out since the stream began
at `start`. -/
structure Buffered (stream : KeyStream) (key : Key) (start : Block) (p : Nat) : Prop where
  /-- What waits lies in the room for one draw. -/
  fits : stream.offset + stream.available ≤ 128
  /-- The cipher was drawn by whole blocks. -/
  whole : 16 ∣ stream.source.drawn
  /-- What was drawn has been handed out, or waits. -/
  drawn : stream.source.drawn = p + stream.available
  /-- What waits is what comes next. -/
  next : (stream.buffer.drop stream.offset).take stream.available
    = streamOctets key start p stream.available

variable {stream : KeyStream} {key : Key} {start : Block} {p : Nat}

/-- Where `At` says where the key stream stands, as it does between any two requests, the four
numbers hang together. -/
theorem At.buffered (h : stream.At key start p) : stream.Buffered key start p where
  fits := by
    have hoffset := h.offset_le
    have hfits := h.fits
    rw [capacity] at hfits
    rw [available]
    omega
  whole := by
    rw [h.source]
    exact h.aligned
  drawn := by rw [h.source]
  next := by
    rw [h.buffer]
    exact List.take_of_length_le (Nat.le_of_eq (length_streamOctets _ _ _ _))

/-! ### Between the requests -/

/-- Requests of any kind leave less than a block, if no more was left before. -/
theorem available_after_lt (h : stream.available < 16) (requests : List Request) :
    (stream.after requests).available < 16 := by
  induction requests generalizing stream with
  | nil => exact h
  | cons request rest ih =>
      cases request with
      | take count => exact ih (available_take_lt h count)
      | xor data => exact ih (available_xor_lt h data)
      | reset start => exact ih (Nat.zero_lt_succ 15)

/-! ### The loop -/

/-- One turn of the loop that hands out `n` octets, if some of them are missing. -/
def turn (n : Nat) (state : Octets × KeyStream) : Octets × KeyStream :=
  if state.1.length < n then
    let piece := state.2.piece (n - state.1.length)
    (state.1 ++ piece.1, piece.2)
  else state

/-- How far the loop has come after `k` turns. -/
def turns (stream : KeyStream) (n : Nat) : Nat → Octets × KeyStream
  | 0 => ([], stream)
  | k + 1 => turn n (stream.turns n k)

/-- The portion that comes of it when the rest is handed out at once. -/
def finish (n : Nat) (state : Octets × KeyStream) : Octets × KeyStream :=
  let rest := state.2.take (n - state.1.length)
  (state.1 ++ rest.1, rest.2)

variable {state : Octets × KeyStream} {n : Nat}

/-- A turn that finds octets missing adds one piece to those handed out so far. -/
theorem length_turn (h : state.1.length < n) :
    (turn n state).1.length
      = state.1.length + (state.2.piece (n - state.1.length)).1.length := by
  rw [turn, if_pos h]
  exact List.length_append

/-- A turn hands something out. -/
theorem lt_length_turn (h : state.1.length < n) :
    state.1.length < (turn n state).1.length := by
  have hpos := state.2.piece_pos (n - state.1.length) (by omega)
  rw [length_turn h]
  omega

/-- But not more than is missing. -/
theorem length_turn_le (h : state.1.length ≤ n) : (turn n state).1.length ≤ n := by
  by_cases hmore : state.1.length < n
  · have hle := state.2.length_piece_le (n - state.1.length)
    rw [length_turn hmore]
    omega
  · rwa [turn, if_neg hmore]

/-- After any number of turns no more octets have been handed out than were asked for. -/
theorem length_turns_le (stream : KeyStream) (n k : Nat) : (stream.turns n k).1.length ≤ n := by
  induction k with
  | zero => exact Nat.zero_le n
  | succ k ih => exact length_turn_le ih

/-- After as many turns as octets are wanted there is nothing left to do. -/
theorem min_le_length_turns (stream : KeyStream) (n k : Nat) :
    min k n ≤ (stream.turns n k).1.length := by
  induction k with
  | zero => omega
  | succ k ih =>
      rw [turns]
      by_cases hmore : (stream.turns n k).1.length < n
      · have hlt := lt_length_turn hmore
        omega
      · rw [turn, if_neg hmore]
        omega

/-- A turn is the beginning of what is still to be done. -/
theorem finish_turn (n : Nat) (state : Octets × KeyStream) :
    finish n (turn n state) = finish n state := by
  by_cases hmore : state.1.length < n
  · let piece := state.2.piece (n - state.1.length)
    have hturn : turn n state = (state.1 ++ piece.1, piece.2) := if_pos hmore
    have hmissing : n - (state.1 ++ piece.1).length = n - state.1.length - piece.1.length := by
      rw [List.length_append, Nat.sub_add_eq]
    -- What `take` does first is the turn.
    have htake : state.2.take (n - state.1.length)
        = (piece.1 ++ (piece.2.take (n - state.1.length - piece.1.length)).1,
          (piece.2.take (n - state.1.length - piece.1.length)).2) := by
      rw [KeyStream.take, if_neg (by omega)]
    rw [hturn, finish, finish, hmissing, htake, List.append_assoc]
  · rw [turn, if_neg hmore]

/-- After any number of turns, the rest handed out at once comes to the whole portion. -/
theorem finish_turns (stream : KeyStream) (n k : Nat) :
    finish n (stream.turns n k) = stream.take n := by
  induction k with
  | zero => rfl
  | succ k ih => rw [turns, finish_turn, ih]

/-- When nothing is missing, there is no rest to hand out. -/
theorem finish_of_le (h : n ≤ state.1.length) : finish n state = state := by
  rw [finish, Nat.sub_eq_zero_of_le h, KeyStream.take, if_pos rfl, List.append_nil]

/-- The loop comes to its end, and the end is the portion. -/
theorem take_eq_turns (stream : KeyStream) (n : Nat) : stream.take n = stream.turns n n := by
  -- After `n` turns nothing is missing, so what is left to do is nothing.
  have hdone := min_le_length_turns stream n n
  rw [Nat.min_self] at hdone
  rw [← finish_turns stream n n, finish_of_le hdone]

/-! ### What holds between the turns -/

/-- A turn hands out the next part of the stream. -/
theorem At.turn (hout : state.1 = streamOctets key start p state.1.length)
    (hat : state.2.At key start (p + state.1.length)) :
    (turn n state).1 = streamOctets key start p (turn n state).1.length ∧
    (turn n state).2.At key start (p + (turn n state).1.length) := by
  by_cases hmore : state.1.length < n
  · -- The piece begins where the octets so far end.
    obtain ⟨hpiece, hmoved⟩ := hat.piece (n - state.1.length)
    rw [length_turn hmore, KeyStream.turn, if_pos hmore]
    refine ⟨?_, ?_⟩
    · rw [← streamOctets_append, ← hout, ← hpiece]
    · rwa [← Nat.add_assoc]
  · rw [KeyStream.turn, if_neg hmore]
    exact ⟨hout, hat⟩

/-- After any number of turns, the octets so far are the part of the stream where the portion
began, and the key stream stands behind them. -/
theorem At.turns (h : stream.At key start p) (n k : Nat) :
    (stream.turns n k).1 = streamOctets key start p (stream.turns n k).1.length ∧
    (stream.turns n k).2.At key start (p + (stream.turns n k).1.length) := by
  induction k with
  | zero => exact ⟨rfl, h⟩
  | succ k ih => exact At.turn ih.1 ih.2

/-- After any number of turns less than a block is left, if no more was left before the first
one. -/
theorem available_turns_lt (h : stream.available < 16) (n k : Nat) :
    (stream.turns n k).2.available < 16 := by
  induction k with
  | zero => exact h
  | succ k ih =>
      rw [KeyStream.turns, KeyStream.turn]
      split
      · exact available_piece_lt ih _
      · exact ih

/-! ### Data -/

/-- The lengths of the portions that the stream is put onto data in. -/
def chunkLengths (n : Nat) : List Nat :=
  if n = 0 then [] else min capacity n :: chunkLengths (n - capacity)
termination_by n
decreasing_by
  rw [capacity]
  omega

/-- The octets that are put onto data are taken in portions. -/
theorem xor_eq_takes (stream : KeyStream) (data : Octets) :
    let takes := (chunkLengths data.length).map Request.take
    stream.xor data
      = (Octets.xor data (stream.answers takes).flatten, stream.after takes) := by
  fun_induction KeyStream.xor stream data with
  | case1 stream =>
      rw [List.length_nil, chunkLengths, if_pos rfl]
      rfl
  | case2 stream octet rest chunk keys others =>
      rename_i ih
      intro takes
      let behind := (octet :: rest).drop capacity
      have hchunk : chunk.length = min capacity (octet :: rest).length := List.length_take
      have hdata : chunk ++ behind = octet :: rest := List.take_append_drop capacity _
      have hkeys : chunk.length = keys.1.length := (stream.length_take chunk.length).symm
      -- The first portion, and then those of the octets behind.
      have htakes : takes
          = .take chunk.length :: (chunkLengths behind.length).map Request.take := by
        show (chunkLengths (octet :: rest).length).map Request.take = _
        rw [chunkLengths, if_neg (by simp), List.map_cons, hchunk, List.length_drop]
      have hothers : others
          = (Octets.xor behind
              (keys.2.answers ((chunkLengths behind.length).map Request.take)).flatten,
            keys.2.after ((chunkLengths behind.length).map Request.take)) := ih
      rw [htakes, hothers, ← hdata, ← Octets.xor_append _ _ _ _ hkeys]
      rfl

/-! ### A key stream that was asked anything -/

/-- The buffer of a key stream, after any requests. First, between the requests, the numbers
of drawn, handed out and waiting octets agree, draws end where a block ends, what waits is
what comes next, and is less than a block. Second, the same holds at each turn of the loop
for a portion of any length, before the buffer is refilled and behind it, and as long as
octets are missing each turn hands some out, but not more than are missing. Third, the loop is
at its end after at most as many turns as octets are wanted; then it has handed out exactly
these, and less than a block waits, refilled or not. Fourth, data is covered by portions that
the loop hands out. -/
theorem turns_keep_whole_blocks (key : Key) (start : Block) (requests : List Request) :
    let stream := (KeyStream.new key start).after requests
    let place := requests.foldl Request.move (start, 0)
    (stream.Buffered key place.1 place.2 ∧ stream.available < 16) ∧
    (∀ n k,
      let state := stream.turns n k
      let missing := n - state.1.length
      state.1 = streamOctets key place.1 place.2 state.1.length ∧
      state.2.Buffered key place.1 (place.2 + state.1.length) ∧
      (state.2.ready missing).Buffered key place.1 (place.2 + state.1.length) ∧
      state.2.available < 16 ∧ state.1.length ≤ n ∧
      (state.1.length < n → state.1.length < (stream.turns n (k + 1)).1.length)) ∧
    (∀ n, stream.take n = stream.turns n n ∧ (stream.take n).1.length = n ∧
      (stream.take n).2.available < 16) ∧
    (∀ data,
      let takes := (chunkLengths data.length).map Request.take
      stream.xor data
        = (Octets.xor data (stream.answers takes).flatten, stream.after takes)) := by
  intro stream place
  have hat : stream.At key place.1 place.2 := (At.new key start).after_moves requests
  have hnew : (KeyStream.new key start).available < 16 := Nat.zero_lt_succ 15
  -- Before the first request nothing was drawn, so nothing is left over.
  have hleft : stream.available < 16 := available_after_lt hnew requests
  refine ⟨⟨hat.buffered, hleft⟩, ?_, ?_, xor_eq_takes stream⟩
  · intro n k state missing
    -- Between two turns `At` says where the key stream stands, as between two requests.
    obtain ⟨hout, hstands⟩ := hat.turns n k
    exact ⟨hout, hstands.buffered, (hstands.ready missing).buffered, available_turns_lt hleft n k,
      length_turns_le stream n k, lt_length_turn⟩
  · intro n
    exact ⟨take_eq_turns stream n, length_take stream n, available_take_lt hleft n⟩

/-- Seven octets leave nine of their block behind. The portion of 300 that follows begins with
these, and leaves thirteen of the last of its blocks. -/
theorem turns_keep_whole_blocks_inside_block :
    let stream := (KeyStream.new (Vector.replicate 16 0) (Vector.replicate 16 255)).after [.take 7]
    stream.available = 9 ∧ ([] : Octets).length < 300 ∧ 0 < (stream.turns 300 1).1.length ∧
      (stream.take 300).1.length = 300 ∧ (stream.take 300).2.available = 13 := by
  intro stream
  obtain ⟨⟨hbuffered, hleft⟩, hturns, htake, -⟩ :=
    turns_keep_whole_blocks (Vector.replicate 16 0) (Vector.replicate 16 255) [.take 7]
  obtain ⟨-, -, -, -, -, hprogress⟩ := hturns 300 0
  obtain ⟨hloop, hlength, hless⟩ := htake 300
  obtain ⟨-, hend, -⟩ := hturns 300 300
  rw [← hloop, hlength] at hend
  -- The cipher stands at the end of a block, so what waits is what the position lacks to it.
  have hwaiting : stream.available = 9 := by
    have hdrawn : stream.source.drawn = 7 + stream.available := hbuffered.drawn
    have hwhole : 16 ∣ stream.source.drawn := hbuffered.whole
    have hless : stream.available < 16 := hleft
    omega
  have hwaiting' : (stream.take 300).2.available = 13 := by
    have hdrawn : (stream.take 300).2.source.drawn = 7 + 300 + (stream.take 300).2.available :=
      hend.drawn
    have hwhole : 16 ∣ (stream.take 300).2.source.drawn := hend.whole
    have hless' : (stream.take 300).2.available < 16 := hless
    omega
  exact ⟨hwaiting, by decide, hprogress (by decide), hlength, hwaiting'⟩

end KeyStream

end SecureRtp
