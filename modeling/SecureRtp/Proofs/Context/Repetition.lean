import SecureRtp.Proofs.Context.Payload
import SecureRtp.Proofs.Rollover.Round

/-!
# `SecureRtp.Proofs.Context.Repetition`: a packet that comes again

A network may deliver a packet twice, and an owner of a packet may decrypt it twice. These
are two different things. The second copy of a frame is encrypted like the first one and
must come to the same; a packet that was decrypted already has the key stream put on once
more, which takes it off.

Both rest on the same fact. A packet that was decrypted a moment ago finds the context as
it needs it: its sequence number after itself adjusts nothing (`update_update_self`), so the
counter block is the same as before, and the key stream begins there anew, whatever was left
of it in the buffer (`accept_accept`).

* `decrypt_again`: the second copy comes to the same as the first, and nothing is logged.
* `plaintext_decrypt`: the second decryption of one packet gives the encrypted octets back,
  as far as two tags have left them.
* `decrypt_repeated` puts the two together.
-/

set_option autoImplicit false

namespace SecureRtp

/-! ### The counter -/

/-- No number is low and high at once, so a number after itself adjusts nothing. -/
theorem Adjustment.between_self {maxDisorder : UInt16} (hlimit : maxDisorder < 0x8000)
    (sequence : UInt16) : between sequence sequence maxDisorder = .keep := by
  have hlt : maxDisorder.toNat < 32768 := UInt16.lt_iff_toNat_lt.mp hlimit
  have hback : ¬ (sequence < maxDisorder ∧ 0xffff - maxDisorder < sequence) := by
    simp only [UInt16.lt_iff_toNat_lt, toNat_high]
    omega
  by_cases hzero : sequence = 0
  · subst hzero
    rw [between, if_pos rfl, if_neg UInt16.not_lt_zero]
  · rw [between, if_neg hzero, if_neg hback, if_neg hback]

namespace RolloverCounter

variable {counter : RolloverCounter}

/-- The number that a counter has seen last makes no adjustment when it comes again. -/
theorem adjustment_update_self (hlimit : counter.maxDisorder < 0x8000) (sequence : UInt16) :
    (counter.update sequence).adjustment sequence = .keep :=
  Adjustment.between_self hlimit sequence

/-- A number that comes again changes nothing. -/
theorem update_update_self (hlimit : counter.maxDisorder < 0x8000) (sequence : UInt16) :
    (counter.update sequence).update sequence = counter.update sequence := by
  rw [update, adjustment_update_self hlimit]
  rfl

end RolloverCounter

namespace Context

variable {context : Context} {packet : Packet} {key : Key}

/-! ### The second copy of a frame -/

/-- A context that has accepted a packet logs nothing when it comes again. -/
theorem acceptLog_accept (hlimit : context.rollover.maxDisorder < 0x8000) (packet : Packet) :
    (context.accept packet).context.acceptLog packet = [] := by
  have hkeep : (context.accept packet).context.rollover.adjustment packet.sequence = .keep :=
    RolloverCounter.adjustment_update_self hlimit packet.sequence
  have hstream : (context.accept packet).context.stream.isSome := by
    show (context.stream.or (some packet.stream)).isSome
    simp
  obtain ⟨own, hown⟩ := Option.isSome_iff_exists.mp hstream
  rw [acceptLog, hkeep, hown]
  rfl

/-- What the context does with a packet does not change when it did it a moment ago. -/
theorem accept_accept (hkey : context.Keyed key)
    (hlimit : context.rollover.maxDisorder < 0x8000) (packet : Packet) :
    (context.accept packet).context.accept packet
      = { context.accept packet with log := [] } := by
  obtain ⟨start, p, hat⟩ := hkey
  have hlog := acceptLog_accept hlimit packet
  have hmoved := fun block => ((hat.reset block).xor packet.payload).2
  -- The two restarts lead to one and the same key stream.
  have hrestart : ∀ block block' : Block,
      ((context.keyStream.reset block').xor packet.payload).2.reset block
        = context.keyStream.reset block := fun block block' => by
    rw [(hmoved block').reset_eq, hat.reset_eq]
  have hstream : (context.stream.or (some packet.stream)).or (some packet.stream)
      = context.stream.or (some packet.stream) := by
    cases context.stream <;> rfl
  rw [accept, hlog]
  simp only [accept, RolloverCounter.update_update_self hlimit, hrestart, hstream]

/-- A packet that comes again is decrypted again, to the same packet and the same context,
and nothing is logged. -/
theorem decrypt_again (hkey : context.Keyed key)
    (hlimit : context.rollover.maxDisorder < 0x8000) (h : context.Accepts packet) :
    (context.decrypt packet).context.decrypt packet
      = { context.decrypt packet with log := [] } := by
  rw [decrypt_eq_accept (accepts_decrypt h rfl h.2), (settings_decrypt context packet).1,
    decrypt_eq_accept h, accept_accept hkey hlimit]

/-! ### The same packet once more -/

/-- The key stream put on once more is taken off. What is left are the encrypted octets in
front of two tags. -/
theorem plaintext_decrypt (hkey : context.Keyed key)
    (hlimit : context.rollover.maxDisorder < 0x8000) (h : context.Accepts packet) :
    (context.decrypt packet).context.plaintext key (context.decrypt packet).packet
      = packet.payload.take (packet.payload.length - 2 * context.profile.tagLength) := by
  have hopens := decrypt_of_accepts hkey h
  have hlength : (context.decrypt packet).packet.payload.length - context.profile.tagLength
      = packet.payload.length - 2 * context.profile.tagLength := by
    rw [length_payload_decrypt h]
    omega
  obtain ⟨hstream, hsequence, -⟩ := header_decrypt h
  have hshorter : packet.payload.length - 2 * context.profile.tagLength
      ≤ packet.payload.length - context.profile.tagLength := by omega
  -- Both times the key stream begins at the same block.
  rw [plaintext, hopens.profile, hopens.sessionSalt, hopens.rollover, hlength, hstream,
    hsequence, RolloverCounter.update_update_self hlimit, hopens.opened]
  show Octets.xor ((context.plaintext key packet).take _) _ = _
  rw [plaintext, Octets.take_xor, List.take_take, Nat.min_eq_left hshorter,
    take_streamOctets _ _ _ hshorter]
  refine Octets.xor_xor_cancel _ _ ?_
  rw [List.length_take, length_streamOctets]
  exact Nat.min_le_left _ _

/-- A packet that is decrypted right after it was decrypted. First, the second copy of a
frame comes to the same packet as the first one and leaves the context as it is, and nothing
is logged. Second, the packet that was decrypted, if its payload had room for two tags, is
decrypted once more, and then has the encrypted octets again that it came with, without the
ones in the place of the two tags, and its header in front of them. -/
theorem decrypt_repeated (master : MasterKey) (context : Context)
    (hreachable : context.Reachable master) (frame : Octets) (packet : Packet)
    (hdecode : Packet.decode frame = .ok packet)
    (hresult : (context.decrypt packet).result = .ok ()) :
    let first := context.decrypt packet
    (∀ copy, Packet.decode frame = .ok copy →
      let second := first.context.decrypt copy
      second.result = .ok () ∧ second.packet = first.packet ∧
        second.context = first.context ∧ second.log = []) ∧
    (2 * context.profile.tagLength ≤ packet.payload.length →
      let second := first.context.decrypt first.packet
      let encrypted :=
        packet.payload.take (packet.payload.length - 2 * context.profile.tagLength)
      second.result = .ok () ∧ second.packet.payload = encrypted ∧
        second.packet.frame = frame.take packet.payloadOffset ++ encrypted) := by
  intro first
  have hkeyed := hreachable.hasKeys.keyed
  have hlimit := hreachable.maxDisorder_lt
  have haccepts := result_decrypt_eq_ok_iff.mp hresult
  constructor
  · intro copy hcopy second
    -- A frame holds one packet, so the copy is the packet.
    obtain rfl : packet = copy := by
      rw [hdecode] at hcopy
      cases hcopy
      rfl
    have hagain : second = { first with log := [] } := decrypt_again hkeyed hlimit haccepts
    rw [hagain]
    exact ⟨hresult, rfl, rfl, rfl⟩
  · intro hroom second encrypted
    obtain ⟨hstream, -, hoffset⟩ := header_decrypt haccepts
    have hlength : first.packet.payload.length
        = packet.payload.length - context.profile.tagLength :=
      length_payload_decrypt haccepts
    have hsecond : first.context.Accepts first.packet :=
      accepts_decrypt haccepts hstream (by omega)
    have hfirst := decrypt_of_accepts hkeyed haccepts
    -- The first decryption leaves the context with the same key.
    have hpayload : second.packet.payload = encrypted := by
      rw [(decrypt_of_accepts hfirst.keyed hsecond).opened]
      exact plaintext_decrypt hkeyed hlimit haccepts
    refine ⟨result_decrypt hsecond, hpayload, ?_⟩
    have hheader := take_frame_decrypt haccepts (Packet.headed_of_decode hdecode)
    rw [frame_decrypt hsecond, hheader, Packet.frame_of_decode hdecode]
    exact congrArg _ hpayload

/-- The packet with the number zero behind the one with the number 65535. The first copy
begins a round and the second one does not, and of 25 encrypted octets two tags of ten leave
five. -/
theorem decrypt_repeated_on_seam :
    let master : MasterKey := ⟨Vector.replicate 16 0x2b, Vector.replicate 14 0xf0⟩
    let earlier : Packet := ⟨1, 65535, 12, List.replicate 31 0, List.replicate 43 0⟩
    let header : Octets := [0x80, 0, 0, 0, 0, 0, 0, 0, 0, 0, 0, 1]
    let frame := header ++ List.replicate 25 9
    let packet : Packet := ⟨1, 0, 12, List.replicate 25 9, frame⟩
    ∃ context : Context, context.Reachable master ∧
      context.rollover.last = some earlier.sequence ∧ Packet.decode frame = .ok packet ∧
      (let first := context.decrypt packet
       first.result = .ok () ∧ first.context.rollover.value = 1 ∧
        (first.context.decrypt packet).packet = first.packet ∧
        (first.context.decrypt packet).context = first.context ∧
        (first.context.decrypt packet).log = [] ∧
        (first.context.decrypt first.packet).packet.payload = List.replicate 5 9 ∧
        (first.context.decrypt first.packet).packet.frame = header ++ List.replicate 5 9) := by
  intro master earlier header frame packet
  obtain ⟨context, hreachable, hprofile, hrollover, hnext⟩ :=
    exists_reachable_decrypt ⟨.tag80, 100⟩ (by decide) master earlier (by decide)
  have hheader : Packet.decode header = .ok ⟨1, 0, 12, [], header⟩ := by
    dsimp only [header]
    rfl
  have hdecode : Packet.decode frame = .ok packet :=
    Packet.decode_append hheader (List.replicate 25 9)
  have haccepts : context.Accepts packet := hnext packet rfl (by decide)
  obtain ⟨hcopy, hsame⟩ := decrypt_repeated master context hreachable frame packet hdecode
    (result_decrypt haccepts)
  obtain ⟨-, hpacket, hcontext, hlog⟩ := hcopy packet hdecode
  rw [hprofile] at hsame
  obtain ⟨-, hpayload, hframe⟩ := hsame (by decide)
  -- From the number 65535 to zero a round begins.
  have hvalue : (context.decrypt packet).context.rollover.value = 1 := by
    rw [rollover_decrypt haccepts, hrollover]
    decide
  exact ⟨context, hreachable, by rw [hrollover], hdecode, result_decrypt haccepts, hvalue,
    hpacket, hcontext, hlog, hpayload, hframe⟩

end Context

end SecureRtp
