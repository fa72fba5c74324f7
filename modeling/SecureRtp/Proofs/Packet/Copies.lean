import SecureRtp.Proofs.Context.Payload
import SecureRtp.Proofs.Context.Rejection

/-!
# `SecureRtp.Proofs.Packet.Copies`: a packet and its frame in the long run

A packet keeps its payload twice, by itself and at the end of its frame, and the two drift
apart when the payload is written over. A packet can also be cloned, after which the copies
go their own ways. This module says what nevertheless holds of each copy at any time.

`Copy` is a packet with the two things that have to be remembered of its past, those of the
packet it was cloned from included: how many octets the tags had that were dropped, and
whether a write has changed the payload since the frame was last in line with it. An
`Action` handles one of the copies or clones one of them.

`Copy.Represents` is the invariant. The frame is the header of the frame that was decoded,
followed by as many octets as the payload has, and these are the payload unless it was
changed. A frame of this form is decoded to the packet with these octets
(`Copy.Represents.decode_frame`), since a header holds the same packet whatever is behind
it. `Represents.handle` is the step, and `represents_of_mem` the run.
-/

set_option autoImplicit false

namespace SecureRtp

namespace Packet

/-- One of the copies of a packet, with what has happened to it. -/
structure Copy where
  /-- The packet. -/
  packet : Packet
  /-- How many octets the tags had that were dropped. -/
  dropped : Nat
  /-- Whether a write has changed the payload since the packet was decoded or last
  decrypted. -/
  changed : Bool

/-- The packet as it was decoded. -/
def original (fresh : Packet) : Copy := { packet := fresh, dropped := 0, changed := false }

/-- The copy after it was handled. A write that leaves everything as it was is no change, and
of decryptions only those count that succeed. -/
def Copy.handle (copy : Copy) : Handling → Copy
  | .overwrite start octets =>
    let written := copy.packet.overwrite start octets
    { copy with packet := written, changed := copy.changed || decide (written ≠ copy.packet) }
  | .decrypt context =>
    let decryption := context.decrypt copy.packet
    if decryption.succeeded then
      { packet := decryption.packet
        dropped := copy.dropped + context.profile.tagLength
        changed := false }
    else { copy with packet := decryption.packet }

/-- What can be done with the copies of a packet, which are numbered. -/
inductive Action
  /-- A copy is handled. -/
  | handle (place : Nat) (handling : Handling)
  /-- A copy is made of a copy. -/
  | clone (place : Nat)

/-- The copies after an action. There is nothing to be done with a copy that does not
exist. -/
def act (copies : List Copy) : Action → List Copy
  | .handle place handling =>
    match copies[place]? with
    | some copy => copies.set place (copy.handle handling)
    | none => copies
  | .clone place => copies ++ copies[place]?.toList

/-- The copies of a packet after some actions. -/
def copies (fresh : Packet) (actions : List Action) : List Copy :=
  actions.foldl act [original fresh]

/-- What a copy has kept of the packet `fresh` that was decoded. -/
structure Copy.Represents (copy : Copy) (fresh : Packet) : Prop where
  stream : copy.packet.stream = fresh.stream
  sequence : copy.packet.sequence = fresh.sequence
  payloadOffset : copy.packet.payloadOffset = fresh.payloadOffset
  /-- The frame begins with the header that was there. -/
  header : copy.packet.frame.take copy.packet.payloadOffset
    = fresh.frame.take fresh.payloadOffset
  /-- Behind the header there are as many octets as the payload has. -/
  length : copy.packet.frame.length
    = copy.packet.payloadOffset + copy.packet.payload.length
  /-- The payload has lost its tags and nothing else. -/
  dropped : copy.packet.payload.length + copy.dropped = fresh.payload.length
  /-- An unchanged payload is what stands behind the header. -/
  inLine : copy.changed = false →
    copy.packet.frame.drop copy.packet.payloadOffset = copy.packet.payload

variable {frame : Octets} {fresh : Packet} {copy : Copy}

/-! ### One action -/

/-- A packet that was just decoded has lost no tags, and its frame is its header followed by its
payload. -/
theorem represents_original (h : decode frame = .ok fresh) :
    (original fresh).Represents fresh := by
  have hheaded := headed_of_decode h
  have hframe := frame_eq_of_decode h
  rw [← frame_of_decode h] at hframe
  have hlength := congrArg List.length hframe
  rw [List.length_append, List.length_take_of_le hheaded] at hlength
  refine ⟨rfl, rfl, rfl, rfl, hlength, rfl, fun _ => ?_⟩
  show fresh.frame.drop fresh.payloadOffset = fresh.payload
  conv_lhs => rw [hframe]
  exact List.drop_left' (List.length_take_of_le hheaded)

/-- The frame of a copy is as long as its header at least. -/
theorem Copy.Represents.headed (h : copy.Represents fresh) : copy.packet.Headed := by
  rw [Headed, h.length]
  exact Nat.le_add_right _ _

/-- A write leaves the frame and the length of the payload. -/
theorem Copy.Represents.overwrite (h : copy.Represents fresh) (start : Nat) (octets : Octets) :
    (copy.handle (.overwrite start octets)).Represents fresh where
  stream := h.stream
  sequence := h.sequence
  payloadOffset := h.payloadOffset
  header := h.header
  length := by
    show copy.packet.frame.length
      = copy.packet.payloadOffset + (copy.packet.overwrite start octets).payload.length
    rw [length_payload_overwrite, h.length]
  dropped := by
    show (copy.packet.overwrite start octets).payload.length + copy.dropped = _
    rw [length_payload_overwrite, h.dropped]
  inLine := by
    intro hunchanged
    obtain ⟨hbefore, hsame⟩ := Bool.or_eq_false_iff.mp hunchanged
    -- A write that is no change has left the payload as it was.
    have hwritten : copy.packet.overwrite start octets = copy.packet := by
      simpa using hsame
    show (copy.packet.overwrite start octets).frame.drop
        (copy.packet.overwrite start octets).payloadOffset
      = (copy.packet.overwrite start octets).payload
    rw [hwritten]
    exact h.inLine hbefore

/-- A decryption that succeeds brings the frame in line with the payload. -/
theorem Copy.Represents.decrypt (h : copy.Represents fresh) (context : Context) :
    (copy.handle (.decrypt context)).Represents fresh := by
  rw [Copy.handle]
  by_cases haccepts : context.Accepts copy.packet
  · rw [if_pos ((Context.succeeded_decrypt_iff _ _).mpr haccepts)]
    obtain ⟨hstream, hsequence, hoffset⟩ := Context.header_decrypt haccepts
    have hpayload := Context.length_payload_decrypt haccepts
    have hroom : context.profile.tagLength ≤ copy.packet.payload.length := haccepts.2
    have hframe := Context.frame_decrypt haccepts
    -- The new frame is cut where the old one was, so the header is whole.
    have hcut := List.length_take_of_le h.headed
    refine ⟨hstream.trans h.stream, hsequence.trans h.sequence, hoffset.trans h.payloadOffset,
      (Context.take_frame_decrypt haccepts h.headed).trans h.header, ?_, ?_, fun _ => ?_⟩
    · show (context.decrypt copy.packet).packet.frame.length = _
      rw [hframe, List.length_append, hcut, hoffset]
    · show (context.decrypt copy.packet).packet.payload.length
        + (copy.dropped + context.profile.tagLength) = _
      rw [← h.dropped, hpayload]
      omega
    · show (context.decrypt copy.packet).packet.frame.drop _ = _
      rw [hframe]
      exact List.drop_left' (hcut.trans hoffset.symm)
  · rw [if_neg (by rwa [Context.succeeded_decrypt_iff]),
      Context.packet_decrypt_of_not_accepts haccepts]
    exact h

/-- A copy that is written over or decrypted still represents the packet that was decoded. -/
theorem Copy.Represents.handle (h : copy.Represents fresh) (handling : Handling) :
    (copy.handle handling).Represents fresh := by
  cases handling with
  | overwrite start octets => exact h.overwrite start octets
  | decrypt context => exact h.decrypt context

/-! ### Any number of actions -/

/-- An action keeps what holds of all copies: it handles one of them, or adds a copy that is equal
to one of them, or finds none at the place. -/
theorem represents_act {copies : List Copy} (h : ∀ copy ∈ copies, copy.Represents fresh)
    (action : Action) : ∀ copy ∈ act copies action, copy.Represents fresh := by
  intro copy hcopy
  cases action with
  | handle place handling =>
      rw [act] at hcopy
      split at hcopy
      · rename_i handled hhandled
        rcases List.mem_or_eq_of_mem_set hcopy with hother | rfl
        · exact h copy hother
        · exact (h handled (List.mem_of_getElem? hhandled)).handle handling
      · exact h copy hcopy
  | clone place =>
      rcases List.mem_append.mp hcopy with hother | hclone
      · exact h copy hother
      · rw [Option.mem_toList] at hclone
        exact h copy (List.mem_of_getElem? hclone)

/-- Every copy represents the packet that was decoded, whatever was done with the copies. -/
theorem represents_of_mem (h : decode frame = .ok fresh) (actions : List Action) :
    ∀ copy ∈ copies fresh actions, copy.Represents fresh := by
  have hstart : ∀ copy ∈ [original fresh], copy.Represents fresh := by
    simpa using represents_original h
  rw [copies]
  generalize [original fresh] = before at hstart
  induction actions generalizing before with
  | nil => exact hstart
  | cons action rest ih => exact ih (act before action) (represents_act hstart action)

/-! ### Decoding the frame again -/

/-- The frame of a copy can be decoded. It is the header that was there at first with other octets
behind it, so it holds the same packet with these octets as its payload. -/
theorem Copy.Represents.decode_frame (h : copy.Represents fresh)
    (hdecode : decode frame = .ok fresh) :
    decode copy.packet.frame
      = .ok { copy.packet with payload := copy.packet.frame.drop copy.packet.payloadOffset } := by
  have hreplaced := decode_replace hdecode (copy.packet.frame.drop copy.packet.payloadOffset)
  rw [← frame_of_decode hdecode, ← h.header, List.take_append_drop] at hreplaced
  rw [hreplaced, ← h.stream, ← h.sequence, ← h.payloadOffset]

/-- A copy of a packet at any time, whatever was done with the copies before. The frame is as
long as the header and the payload, and begins with the header that was there; the payload
is shorter than at first by the tags of the decryptions that succeeded, and by nothing else.
The frame can be decoded, to a packet with the same header; and to the very same packet, if
the payload was not changed since it was decoded or last decrypted. A decryption that
succeeds leaves the frame with the header that was there at first and the new payload. -/
theorem copies_represent (frame : Octets) (fresh : Packet) (hdecode : decode frame = .ok fresh)
    (actions : List Action) (copy : Copy) (hcopy : copy ∈ copies fresh actions) :
    let packet := copy.packet
    packet.frame.length = packet.payloadOffset + packet.payload.length ∧
    packet.frame.take packet.payloadOffset = frame.take packet.payloadOffset ∧
    packet.payloadOffset + packet.payload.length + copy.dropped = frame.length ∧
    (∃ again, decode packet.frame = .ok again ∧ again.stream = packet.stream ∧
      again.sequence = packet.sequence ∧ again.payloadOffset = packet.payloadOffset) ∧
    packet.stream = fresh.stream ∧ packet.sequence = fresh.sequence ∧
    packet.payloadOffset = fresh.payloadOffset ∧
    (copy.changed = false → decode packet.frame = .ok packet) ∧
    (∀ context : Context, (context.decrypt packet).result = .ok () →
      let decrypted := (context.decrypt packet).packet
      decrypted.frame = frame.take packet.payloadOffset ++ decrypted.payload) := by
  intro packet
  have h := represents_of_mem hdecode actions copy hcopy
  have hagain := h.decode_frame hdecode
  have hheader : packet.frame.take packet.payloadOffset = frame.take packet.payloadOffset := by
    rw [h.header, frame_of_decode hdecode, h.payloadOffset]
  refine ⟨h.length, hheader, ?_, ⟨_, hagain, rfl, rfl, rfl⟩, h.stream, h.sequence,
    h.payloadOffset, ?_, ?_⟩
  · have hfresh : fresh.frame.length = fresh.payloadOffset + fresh.payload.length :=
      (represents_original hdecode).length
    rw [h.payloadOffset, Nat.add_assoc, h.dropped, ← hfresh, frame_of_decode hdecode]
  · intro hunchanged
    rw [hagain, h.inLine hunchanged]
  · intro context hresult decrypted
    rw [← hheader]
    exact Context.frame_decrypt (Context.result_decrypt_eq_ok_iff.mp hresult)

/-- A packet that is decrypted and then cloned. The clone is written over, and the first
copy is given to a context of another stream, which turns it away. Both have lost a tag of
ten octets from a frame of 42, and the frame of the first one is decoded to that copy. -/
theorem copies_represent_cloned :
    let context : Context :=
      ⟨.tag80, none, ⟨0, none, 100⟩, Vector.replicate 14 7,
        KeyStream.new (Vector.replicate 16 3) (Vector.replicate 16 0)⟩
    let stranger : Context := { context with stream := some 2 }
    let header : Octets := [0x80, 0, 0, 0, 0, 0, 0, 0, 0, 0, 0, 1]
    let frame := header ++ List.replicate 30 9
    let fresh : Packet := ⟨1, 0, 12, List.replicate 30 9, frame⟩
    let actions : List Action := [.handle 0 (.decrypt context), .clone 0,
      .handle 1 (.overwrite 0 [5]), .handle 0 (.decrypt stranger)]
    decode frame = .ok fresh ∧
      ∃ first second, copies fresh actions = [first, second] ∧
        first.packet.frame.length = 32 ∧ second.packet.frame.length = 32 ∧
        decode first.packet.frame = .ok first.packet := by
  intro context stranger header frame fresh actions
  have hheader : decode header = .ok ⟨1, 0, 12, [], header⟩ := by
    dsimp only [header]
    rfl
  have hdecode : decode frame = .ok fresh := decode_append hheader (List.replicate 30 9)
  have haccepts : context.Accepts fresh := ⟨by simp [context], by decide⟩
  have hsucceeded := (Context.succeeded_decrypt_iff context fresh).mpr haccepts
  -- The stranger belongs to the stream 2, and decryption has left the packet in the stream 1.
  have hrefuses : ¬ stranger.Accepts (context.decrypt fresh).packet := by
    intro hboth
    have hstream := hboth.1 2 rfl
    rw [(Context.header_decrypt haccepts).1] at hstream
    exact absurd hstream (by decide)
  have hrefused : (stranger.decrypt (context.decrypt fresh).packet).succeeded = false := by
    rwa [← Bool.not_eq_true, Context.succeeded_decrypt_iff]
  let first : Copy := ⟨(context.decrypt fresh).packet, 10, false⟩
  let second : Copy := first.handle (.overwrite 0 [5])
  have hcopies : copies fresh actions = [first, second] := by
    simp [copies, actions, act, Copy.handle, hsucceeded, hrefused, original, first, second,
      Context.packet_decrypt_of_not_accepts hrefuses, context, Profile.tagLength, Profile.tagBits]
  obtain ⟨hlength, -, hdropped, -, -, -, -, hagain, -⟩ :=
    copies_represent frame fresh hdecode actions first (by simp [hcopies])
  obtain ⟨hlength', -, hdropped', -⟩ :=
    copies_represent frame fresh hdecode actions second (by simp [hcopies])
  have hframe : frame.length = 42 := by decide
  have hfirst : first.dropped = 10 := rfl
  have hsecond : second.dropped = 10 := rfl
  exact ⟨hdecode, first, second, hcopies, by omega, by omega, hagain rfl⟩

end Packet

end SecureRtp
