import Mathlib.Data.Nat.Bitwise
import Mathlib.Tactic.MkIffOfInductiveProp
import SecureRtp.Octets.BigEndian.Lemmas
import SecureRtp.Proofs.Packet.Cursor

/-!
# `SecureRtp.Proofs.Packet.Grammar`: the frames that hold a packet

A header is read from the front, and what is read later depends on what was read before.
This module describes the same frames by the octets at their places. `payloadStart` is
where the payload begins, computed from the first octet and, with an extension, from the
two octets behind the sources that hold its length. `WellFormed` says that the version is 2
and that everything up to this place is there.

The proof goes through the steps of `header` in order. Each step works on what is left of
the frame behind some place, and the lemmas of the first part say when it succeeds there
and at which place the next step goes on. `header_eq_some_iff` puts them together.

* `decode_exact`: the frames that are decoded are the well-formed ones, all others are
  refused, and the packet is the one that the places say.
-/

set_option autoImplicit false

namespace SecureRtp

namespace Packet

/-! ### Octets and numbers at a place -/

/-- The octet at a place of the frame. There are zeros behind the end. -/
def octetAt (frame : Octets) (place : Nat) : Nat := (frame.getD place 0).toNat

/-- The number in the `width` octets that begin at a place of the frame. -/
def field (frame : Octets) (place width : Nat) : Nat :=
  BigEndian.value ((frame.drop place).take width)

/-- An octet of the frame is below 256, and so is the zero behind its end. -/
theorem octetAt_lt (frame : Octets) (place : Nat) : octetAt frame place < 256 :=
  UInt8.toNat_lt _

/-- At a place within the frame, `octetAt` is the octet that stands there. -/
theorem octetAt_eq_getElem {frame : Octets} {place : Nat} (h : place < frame.length) :
    octetAt frame place = frame[place].toNat := by
  rw [octetAt, List.getD_eq_getElem _ _ h]

/-- A field of `width` octets is below `256 ^ width`, also where the frame ends within it. -/
theorem field_lt (frame : Octets) (place width : Nat) : field frame place width < 256 ^ width :=
  calc field frame place width
      < 256 ^ ((frame.drop place).take width).length := BigEndian.value_lt _
    _ ≤ 256 ^ width := Nat.pow_le_pow_right (by decide) (List.length_take_le _ _)

/-- A field of two octets that are both there, by its octets. -/
theorem field_two {frame : Octets} {place : Nat} (h : place + 2 ≤ frame.length) :
    field frame place 2 = 256 * octetAt frame place + octetAt frame (place + 1) := by
  have hread : (frame.drop place).take 2 = [frame[place], frame[place + 1]] := by
    rw [List.drop_eq_getElem_cons (by omega), List.drop_eq_getElem_cons (by omega)]
    rfl
  rw [field, hread, octetAt_eq_getElem (by omega), octetAt_eq_getElem (by omega)]
  simp [BigEndian.value]

/-- A field of two octets is a number of 16 bits as it is. -/
theorem toNat_field_two (frame : Octets) (place : Nat) :
    (UInt16.ofNat (field frame place 2)).toNat = field frame place 2 :=
  UInt16.toNat_ofNat_of_lt' (field_lt frame place 2)

/-- A field of four octets is a number of 32 bits as it is. -/
theorem toNat_field_four (frame : Octets) (place : Nat) :
    (UInt32.ofNat (field frame place 4)).toNat = field frame place 4 :=
  UInt32.toNat_ofNat_of_lt' (field_lt frame place 4)

end Packet

namespace Reader

open Packet (field)

variable {β : Type} (frame : Octets) (place n : Nat) (read : β × Octets)

/-! ### The steps of a reader at a place -/

/-- Reading `n` octets at a place succeeds exactly when so many stand there, and goes on with them
`n` octets further. The steps below are made of this one. -/
theorem octets_drop_iff (next : Octets → Reader β) :
    (octets n >>= next) (frame.drop place) = some read ↔
      n ≤ frame.length - place ∧
        next ((frame.drop place).take n) (frame.drop (place + n)) = some read := by
  show (octets n (frame.drop place)).bind (fun read => next read.1 read.2) = some read ↔ _
  simp only [octets, List.length_take, List.length_drop, List.drop_drop]
  by_cases h : n ≤ frame.length - place
  · rw [if_pos (Nat.min_eq_left h), Option.bind_some]
    exact (and_iff_right h).symm
  · rw [if_neg (by omega), Option.bind_none]
    simp [h]

/-- Passing over `n` octets at a place succeeds exactly when so many stand there, and goes on `n`
octets further. -/
theorem skip_drop_iff (next : Unit → Reader β) :
    (skip n >>= next) (frame.drop place) = some read ↔
      n ≤ frame.length - place ∧ next () (frame.drop (place + n)) = some read := by
  simp only [skip, bind_assoc, pure_bind, octets_drop_iff]

/-- Reading a number of 16 bits at a place gives the field of two octets there, and goes on behind
it. -/
theorem uint16_drop_iff (next : UInt16 → Reader β) :
    (uint16 >>= next) (frame.drop place) = some read ↔
      2 ≤ frame.length - place ∧
        next (UInt16.ofNat (field frame place 2)) (frame.drop (place + 2)) = some read := by
  simp only [uint16, bind_assoc, pure_bind, octets_drop_iff, field]

/-- Reading a number of 32 bits at a place gives the field of four octets there, and goes on
behind it. -/
theorem uint32_drop_iff (next : UInt32 → Reader β) :
    (uint32 >>= next) (frame.drop place) = some read ↔
      4 ≤ frame.length - place ∧
        next (UInt32.ofNat (field frame place 4)) (frame.drop (place + 4)) = some read := by
  simp only [uint32, bind_assoc, pure_bind, octets_drop_iff, field]

/-- A condition has to hold for the reading to go on. It reads nothing, so it goes on at the same
place. -/
theorem require_iff (condition : Bool) (unread : Octets) (next : Unit → Reader β) :
    (require condition >>= next) unread = some read ↔
      condition = true ∧ next () unread = some read := by
  show (require condition unread).bind (fun read => next read.1 read.2) = some read ↔ _
  cases condition <;> simp [require]

/-- The end of a program gives its value and leaves everything unread. -/
theorem pure_iff (a b : β) (unread rest : Octets) :
    (pure a : Reader β) unread = some (b, rest) ↔ b = a ∧ rest = unread := by
  show some (a, unread) = some (b, rest) ↔ _
  rw [Option.some_inj, Prod.mk.injEq, eq_comm (a := a), eq_comm (a := unread)]

end Reader

namespace Packet

/-! ### The first octet

It is the upper half of the options. -/

/-- The version is in the two highest bits of the first octet. -/
theorem version_eq_two_iff (options : UInt16) :
    version options = 2 ↔ options.toNat / 256 / 64 = 2 := by
  rw [version, ← UInt16.toNat_inj, UInt16.toNat_shiftRight, Nat.shiftRight_eq_div_pow,
    Nat.div_div_eq_div_mul]
  rfl

/-- The number of sources is in the four lowest bits of the first octet. -/
theorem sourceCount_eq (options : UInt16) :
    sourceCount options = options.toNat / 256 % 16 := by
  rw [sourceCount, UInt16.toNat_and, UInt16.toNat_shiftRight, Nat.shiftRight_eq_div_pow]
  exact Nat.and_two_pow_sub_one_eq_mod _ 4

/-- The extension is announced by the bit of the first octet that is worth sixteen. A mask that
has a single bit leaves nothing but this bit. -/
theorem hasExtension_eq (options : UInt16) :
    hasExtension options = (options.toNat / 256).testBit 4 := by
  have hmask : (options &&& 0x1000).toNat
      = ((options.toNat / 256).testBit 4).toNat * 2 ^ 12 := by
    rw [UInt16.toNat_and, show (256 : Nat) = 2 ^ 8 from rfl, Nat.testBit_div_two_pow]
    exact Nat.and_two_pow _ 12
  rw [hasExtension, decide_not, Bool.eq_iff_iff]
  simp only [Bool.not_eq_true', decide_eq_false_iff_not, ← UInt16.toNat_inj, hmask]
  cases (options.toNat / 256).testBit 4 <;> simp

/-- The first octet of the frame is the upper half of the options, if there are two octets to read
them from. -/
theorem toNat_options_div {frame : Octets} (h : 2 ≤ frame.length) :
    (UInt16.ofNat (field frame 0 2)).toNat / 256 = octetAt frame 0 := by
  have hlow := octetAt_lt frame (0 + 1)
  rw [toNat_field_two, field_two (by omega)]
  omega

/-! ### Well-formed frames -/

/-- Whether the first octet announces an extension. -/
def Extended (frame : Octets) : Prop := (octetAt frame 0).testBit 4 = true

instance (frame : Octets) : Decidable (Extended frame) :=
  inferInstanceAs (Decidable (_ = _))

/-- The end of the list of sources. Its length is in the first octet. -/
def sourcesEnd (frame : Octets) : Nat := 12 + 4 * (octetAt frame 0 % 16)

/-- The end of an extension that begins at a place. Its length in units of four octets is
behind its first two octets, and does not include the first unit. -/
def extensionEnd (frame : Octets) (place : Nat) : Nat :=
  place + 4 + 4 * (256 * octetAt frame (place + 2) + octetAt frame (place + 3))

/-- Where the payload begins. -/
def payloadStart (frame : Octets) : Nat :=
  if Extended frame then extensionEnd frame (sourcesEnd frame) else sourcesEnd frame

/-- The header of the frame has the version 2 and is complete. -/
@[mk_iff]
structure WellFormed (frame : Octets) : Prop where
  /-- The fixed part is there. -/
  fixed : 12 ≤ frame.length
  /-- The version is 2. -/
  version : octetAt frame 0 / 64 = 2
  /-- The octets that tell how long the extension is are there. -/
  extension : Extended frame → sourcesEnd frame + 4 ≤ frame.length
  /-- Everything in front of the payload is there. -/
  whole : payloadStart frame ≤ frame.length

instance (frame : Octets) : Decidable (WellFormed frame) :=
  decidable_of_iff _ (wellFormed_iff frame).symm

/-! ### Reading a header -/

open Reader

/-- Reading an extension at a place succeeds exactly when its first four octets are there, which
tell its length, and then all of it. The reading goes on where the extension ends. -/
theorem extension_drop_iff {β : Type} (frame : Octets) (place : Nat) (next : Reader β)
    (read : β × Octets) :
    (do skip 2
        let units ← uint16
        skip (4 * units.toNat)
        next) (frame.drop place) = some read ↔
      place + 4 ≤ frame.length ∧ extensionEnd frame place ≤ frame.length ∧
        next (frame.drop (extensionEnd frame place)) = some read := by
  simp only [skip_drop_iff, uint16_drop_iff, toNat_field_two]
  by_cases hhead : place + 4 ≤ frame.length
  · have hend : place + 2 + 2 + 4 * field frame (place + 2) 2 = extensionEnd frame place := by
      rw [field_two (by omega), extensionEnd]
    -- The head is there and tells where the extension ends, and then one check is enough.
    rw [hend]
    constructor
    · rintro ⟨-, -, hunits, hread⟩
      exact ⟨hhead, by omega, hread⟩
    · rintro ⟨-, hwhole, hread⟩
      exact ⟨by omega, by omega, by omega, hread⟩
  · omega

/-- The first octet, once it is read, gives the place and the program of all that follows
the fixed part. -/
theorem header_eq_some_iff_fixed (frame : Octets) (read : Header × Octets) :
    header frame = some read ↔
      12 ≤ frame.length ∧ octetAt frame 0 / 64 = 2 ∧ sourcesEnd frame ≤ frame.length ∧
      (if Extended frame then do
          skip 2
          let units ← uint16
          skip (4 * units.toNat)
          pure ⟨UInt32.ofNat (field frame 8 4), UInt16.ofNat (field frame 2 2)⟩
        else pure ⟨UInt32.ofNat (field frame 8 4), UInt16.ofNat (field frame 2 2)⟩
          : Reader Header) (frame.drop (sourcesEnd frame)) = some read := by
  show header (frame.drop 0) = some read ↔ _
  simp only [header, uint16_drop_iff, skip_drop_iff, uint32_drop_iff, require_iff,
    Nat.reduceAdd, version_eq_two_iff, sourceCount_eq, hasExtension_eq, decide_eq_true_eq]
  -- Without the whole fixed part, one of the steps up to the stream fails.
  by_cases hfixed : 12 ≤ frame.length
  · rw [toNat_options_div (by omega)]
    constructor
    · rintro ⟨-, -, -, -, hversion, hsources, hread⟩
      exact ⟨hfixed, hversion, by rw [sourcesEnd]; omega, hread⟩
    · rintro ⟨-, hversion, hsources, hread⟩
      rw [sourcesEnd] at hsources
      exact ⟨by omega, by omega, by omega, by omega, hversion, by omega, hread⟩
  · omega

/-- A header can be read exactly from the well-formed frames. It has the two numbers at their
places, and leaves the payload. -/
theorem header_eq_some_iff (frame : Octets) (fields : Header) (payload : Octets) :
    header frame = some (fields, payload) ↔
      WellFormed frame ∧
      fields = ⟨UInt32.ofNat (field frame 8 4), UInt16.ofNat (field frame 2 2)⟩ ∧
      payload = frame.drop (payloadStart frame) := by
  rw [header_eq_some_iff_fixed, wellFormed_iff, payloadStart]
  -- With an extension the payload begins at its end, which is behind that of the sources.
  by_cases hextended : Extended frame
  · rw [if_pos hextended, if_pos hextended, extension_drop_iff, pure_iff]
    constructor
    · rintro ⟨hfixed, hversion, -, hhead, hwhole, hread⟩
      exact ⟨⟨hfixed, hversion, fun _ => hhead, hwhole⟩, hread⟩
    · rintro ⟨⟨hfixed, hversion, hhead, hwhole⟩, hread⟩
      have hsources := hhead hextended
      exact ⟨hfixed, hversion, by omega, hsources, hwhole, hread⟩
  · rw [if_neg hextended, if_neg hextended, pure_iff]
    constructor
    · rintro ⟨hfixed, hversion, hwhole, hread⟩
      exact ⟨⟨hfixed, hversion, fun h => absurd h hextended, hwhole⟩, hread⟩
    · rintro ⟨⟨hfixed, hversion, -, hwhole⟩, hread⟩
      exact ⟨hfixed, hversion, hwhole, hread⟩

/-- A well-formed frame holds a packet. -/
theorem exists_decode {frame : Octets} (h : WellFormed frame) :
    ∃ packet, decode frame = .ok packet := by
  have hread := (header_eq_some_iff frame _ _).mpr ⟨h, rfl, rfl⟩
  exact ⟨_, (decode_eq_ok_iff _ _).mpr ⟨_, _, hread, rfl⟩⟩

/-- No header can be read from a frame that is not well-formed. -/
theorem header_of_not_wellFormed {frame : Octets} (h : ¬ WellFormed frame) :
    header frame = none := by
  rw [Option.eq_none_iff_forall_not_mem]
  rintro ⟨fields, payload⟩ hread
  exact h ((header_eq_some_iff _ _ _).mp hread).1

/-- A frame that is not well-formed is refused, with the one error that decoding has. -/
theorem decode_of_not_wellFormed {frame : Octets} (h : ¬ WellFormed frame) :
    decode frame = .error .invalidInput := by
  rw [decode, header_of_not_wellFormed h]

/-- The cursor and the decoder do the same: where the one reads a header, the other finds
the packet, and where the one is refused, so is the other. -/
theorem walk_eq_decode (frame : Octets) :
    walk frame = match decode frame with
      | .ok packet => .ok (⟨packet.stream, packet.sequence⟩, packet.payload)
      | .error _ => .error .refused := by
  rw [walk_eq, decode]
  cases header frame <;> rfl

/-- Decoding accepts exactly the well-formed frames. Every other frame is refused with
`InvalidInput`. The packet has the numbers at their places in the header, the whole frame,
and as payload everything from `payloadStart` on, so that the frame is its header followed
by the payload. The cursor that reads the header and checks the length before it moves
comes to the same result, and is never moved behind the end. -/
theorem decode_exact (frame : Octets) :
    ((∃ packet, decode frame = .ok packet) ↔ WellFormed frame) ∧
    (¬ WellFormed frame → decode frame = .error .invalidInput) ∧
    (∀ packet, decode frame = .ok packet →
      packet.payloadOffset = payloadStart frame ∧
      packet.sequence.toNat = field frame 2 2 ∧
      packet.stream.toNat = field frame 8 4 ∧
      packet.frame = frame ∧
      packet.payload = frame.drop (payloadStart frame) ∧
      packet.frame = packet.frame.take packet.payloadOffset ++ packet.payload) ∧
    (walk frame = match decode frame with
      | .ok packet => .ok (⟨packet.stream, packet.sequence⟩, packet.payload)
      | .error _ => .error .refused) ∧
    walk frame ≠ .error .overrun := by
  refine ⟨⟨?_, ?_⟩, decode_of_not_wellFormed, ?_, walk_eq_decode frame, walk_ne_overrun frame⟩
  · rintro ⟨packet, hpacket⟩
    by_contra hill
    rw [decode_of_not_wellFormed hill] at hpacket
    cases hpacket
  · exact exists_decode
  · intro packet hpacket
    obtain ⟨fields, payload, hread, rfl⟩ := (decode_eq_ok_iff _ _).mp hpacket
    obtain ⟨hwell, rfl, rfl⟩ := (header_eq_some_iff _ _ _).mp hread
    -- The decoder knows the place by what is left, and it is the place that the octets tell.
    have hoffset : frame.length - (frame.drop (payloadStart frame)).length
        = payloadStart frame := by
      rw [List.length_drop, Nat.sub_sub_self hwell.whole]
    refine ⟨hoffset, toNat_field_two _ _, toNat_field_four _ _, rfl, rfl, ?_⟩
    rw [hoffset, List.take_append_drop]

/-- A frame with a source and an extension, and what is left of it when it ends one octet
before the end of the extension. -/
theorem decode_exact_extension_cut :
    let frame : Octets := [0x91, 0x60, 0, 7, 0, 0, 0, 0, 0, 0, 3, 0xe8, 0, 0, 0, 1,
      0xbe, 0xde, 0, 1, 1, 2, 3, 4, 0xcc, 0xcc]
    (∃ packet, decode frame = .ok packet ∧ packet.payloadOffset = 24 ∧
      packet.sequence.toNat = 7 ∧ packet.stream.toNat = 1000 ∧ packet.payload = [0xcc, 0xcc]) ∧
    decode (frame.take 23) = .error .invalidInput := by
  intro frame
  refine ⟨?_, (decode_exact (frame.take 23)).2.1 (by decide)⟩
  obtain ⟨packet, hpacket⟩ := (decode_exact frame).1.mpr (by decide)
  obtain ⟨hoffset, hsequence, hstream, -, hpayload, -⟩ :=
    (decode_exact frame).2.2.1 packet hpacket
  refine ⟨packet, hpacket, ?_, ?_, ?_, ?_⟩
  · rw [hoffset]
    decide
  · rw [hsequence]
    decide
  · rw [hstream]
    decide
  · rw [hpayload]
    decide

end Packet

end SecureRtp
