import SecureRtp.Proofs.Context.Run
import SecureRtp.Proofs.KeyStream.Blocks
import SecureRtp.Proofs.Packet.Origin

/-!
# `SecureRtp.Proofs.Context.Payload`: a decrypted packet, octet by octet

What a packet is after it was decrypted depends on the packet, the session keys and the
rollover counter, and on nothing else of what the context has done before. The payload has
lost the tag, and each octet of it has the octet of the key stream put on that stands at its
place, counted from the counter block of the packet. The header is the one that it was.

Decryption drops the tag first and puts the key stream onto what is left. It may as well be
put onto the whole payload, with the tag dropped afterwards; `Context.decryptTagged` is this
order. The key stream of the longer payload begins with that of the shorter one, so the two
come to the same packet (`decryptTagged_eq`).

`decrypt_exact` says all of this for every context and every packet that there can be.
-/

set_option autoImplicit false

namespace SecureRtp

namespace Context

/-- The packet decrypted with the tag still on it. The tag is dropped after that, and the
frame is rebuilt at the end. -/
def decryptTagged (context : Context) (packet : Packet) : Option Packet :=
  let rollovers := (context.rollover.update packet.sequence).value
  let start := counterBlock packet.stream rollovers packet.sequence context.sessionSalt
  let opened := ((context.keyStream.reset start).xor packet.payload).1
  (Packet.dropTail? { packet with payload := opened } context.profile.tagLength).map
    Packet.rebuild

variable {context : Context} {packet : Packet} {key : Key}

/-! ### The payload -/

/-- The payload loses the tag, whatever the key is: a key stream that is put on does not
change the length of what is left in front of the tag. -/
theorem length_payload_decrypt (h : context.Accepts packet) :
    (context.decrypt packet).packet.payload.length
      = packet.payload.length - context.profile.tagLength := by
  have hlength : ∀ stripped : Packet,
      (context.accept stripped).packet.payload.length = stripped.payload.length :=
    fun stripped => KeyStream.length_xor _ stripped.payload
  rw [decrypt_eq_accept h, hlength, List.length_take_of_le (Nat.sub_le _ _)]

/-- Each octet of the payload has an octet of its block put on. -/
theorem getElem_payload_decrypt (hkey : context.Keyed key) (h : context.Accepts packet) {k : Nat}
    (hk : k < (context.decrypt packet).packet.payload.length) (hk' : k < packet.payload.length) :
    (context.decrypt packet).packet.payload[k]
      = packet.payload[k] ^^^ (Aes.encrypt key (blockAfter
          (counterBlock packet.stream (context.decrypt packet).context.rollover.value
            packet.sequence context.sessionSalt) (k / 16))).get (Fin.ofNat 16 k) := by
  have hlength := length_payload_decrypt h
  have hopens := decrypt_of_accepts hkey h
  simp only [hopens.opened, hopens.rollover, plaintext]
  rw [Octets.getElem_xor _ _ _ (by rw [List.length_take]; omega)
    (by rw [length_streamOctets]; omega), List.getElem_take, getElem_streamOctets]

/-! ### The header and the frame -/

/-- The frame is rebuilt from the header that was there and the new payload. -/
theorem frame_decrypt (h : context.Accepts packet) :
    (context.decrypt packet).packet.frame
      = packet.frame.take packet.payloadOffset ++ (context.decrypt packet).packet.payload := by
  rw [decrypt_eq_accept h]
  rfl

/-- The header at the front of the frame stays. -/
theorem take_frame_decrypt (h : context.Accepts packet) (hheaded : packet.Headed) :
    (context.decrypt packet).packet.frame.take (context.decrypt packet).packet.payloadOffset
      = packet.frame.take packet.payloadOffset := by
  rw [decrypt_eq_accept h]
  exact Packet.Headed.take_rebuild hheaded

/-- Of the header, nothing is changed, whatever the key is. -/
theorem header_decrypt (h : context.Accepts packet) :
    (context.decrypt packet).packet.stream = packet.stream ∧
      (context.decrypt packet).packet.sequence = packet.sequence ∧
      (context.decrypt packet).packet.payloadOffset = packet.payloadOffset := by
  rw [decrypt_eq_accept h]
  exact ⟨rfl, rfl, rfl⟩

/-! ### The tag -/

/-- It makes no difference whether the tag is dropped before or after. -/
theorem decryptTagged_eq (hkey : context.Keyed key) (h : context.Accepts packet) :
    context.decryptTagged packet = some (context.decrypt packet).packet := by
  obtain ⟨start, p, hat⟩ := id hkey
  rw [(decrypt_of_accepts hkey h).opened, plaintext, decryptTagged]
  generalize counterBlock packet.stream (context.rollover.update packet.sequence).value
    packet.sequence context.sessionSalt = counter
  have hlonger := ((hat.reset counter).xor packet.payload).1
  have hlength : (Octets.xor packet.payload
      (streamOctets key counter 0 packet.payload.length)).length = packet.payload.length := by
    rw [Octets.length_xor, length_streamOctets, Nat.min_self]
  -- Without the tag, what is left is the shorter payload with the beginning of the stream.
  have hshorter : (Octets.xor packet.payload
        (streamOctets key counter 0 packet.payload.length)).take
          (packet.payload.length - context.profile.tagLength)
      = Octets.xor (packet.payload.take (packet.payload.length - context.profile.tagLength))
          (streamOctets key counter 0 (packet.payload.length - context.profile.tagLength)) := by
    rw [Octets.take_xor, take_streamOctets _ _ _ (Nat.sub_le _ _)]
  simp only [hlonger, Packet.dropTail?, hlength, h.2, if_true, hshorter, Option.map_some]
  rfl

/-- A packet that is decrypted, octet by octet, whatever the context has done before. The
payload loses the tag, and nothing but the tag. The octet at the place `k` is the one that
was there with an octet put on: the one at the place `k % 16` of the block that is `k / 16`
blocks after the counter block of the packet, encrypted. The fields and the octets of the
header stay, the frame is the header and the new payload, and the packet is the same as if
the tag had been dropped after the decryption. -/
theorem decrypt_exact (master : MasterKey) (context : Context)
    (hreachable : context.Reachable master) (frame : Octets) (packet : Packet)
    (hpacket : packet.ComesFrom frame) (hresult : (context.decrypt packet).result = .ok ()) :
    let decrypted := (context.decrypt packet).packet
    let rollovers := (context.rollover.update packet.sequence).value
    let start := counterBlock packet.stream rollovers packet.sequence master.sessionSalt
    decrypted.payload.length + context.profile.tagLength = packet.payload.length ∧
    (∀ (k : Nat) (hk : k < decrypted.payload.length), ∃ hk' : k < packet.payload.length,
      decrypted.payload[k]
        = packet.payload[k] ^^^
            (Aes.encrypt master.sessionKey (blockAfter start (k / 16)))[k % 16]) ∧
    decrypted.stream = packet.stream ∧
    decrypted.sequence = packet.sequence ∧
    decrypted.payloadOffset = packet.payloadOffset ∧
    decrypted.frame.take decrypted.payloadOffset = packet.frame.take packet.payloadOffset ∧
    decrypted.frame = packet.frame.take packet.payloadOffset ++ decrypted.payload ∧
    context.decryptTagged packet = some decrypted := by
  intro decrypted rollovers start
  have hkeys := hreachable.hasKeys
  have haccepts := result_decrypt_eq_ok_iff.mp hresult
  have hlength : decrypted.payload.length
      = packet.payload.length - context.profile.tagLength :=
    length_payload_decrypt haccepts
  have hroom : context.profile.tagLength ≤ packet.payload.length := haccepts.2
  obtain ⟨hstream, hsequence, hoffset⟩ := header_decrypt haccepts
  refine ⟨by omega, ?_, hstream, hsequence, hoffset, take_frame_decrypt haccepts hpacket.headed,
    frame_decrypt haccepts, decryptTagged_eq hkeys.keyed haccepts⟩
  -- What is left of the eight parts is the octet at a place, by the reference stream.
  intro k hk
  refine ⟨by omega, ?_⟩
  rw [getElem_payload_decrypt hkeys.keyed haccepts hk, rollover_decrypt haccepts,
    hkeys.sessionSalt]
  rfl

/-- A packet behind one of an odd length, whose key stream ended in the middle of a block.
The octet at the place 20 is in the second block of its own key stream. -/
theorem decrypt_exact_odd_length :
    let master : MasterKey := ⟨Vector.replicate 16 0x2b, Vector.replicate 14 0xf0⟩
    let earlier : Packet := ⟨1, 65535, 12, List.replicate 31 0, List.replicate 43 0⟩
    let header : Octets := [0x80, 0, 0, 0, 0, 0, 0, 0, 0, 0, 0, 1]
    let frame := header ++ List.replicate 37 9
    let packet : Packet := ⟨1, 0, 12, List.replicate 37 9, frame⟩
    ∃ context : Context, context.Reachable master ∧
      context.rollover.last = some earlier.sequence ∧
      packet.ComesFrom frame ∧ (context.decrypt packet).result = .ok () ∧
      (context.decrypt packet).packet.payload.length = 27 ∧
      (∃ hk : 20 < (context.decrypt packet).packet.payload.length,
        (context.decrypt packet).packet.payload[20]
          = (9 : UInt8) ^^^ (Aes.encrypt master.sessionKey (blockAfter
              (counterBlock 1 (context.rollover.update 0).value 0 master.sessionSalt) 1))[4]) ∧
      context.decryptTagged packet = some (context.decrypt packet).packet := by
  intro master earlier header frame packet
  obtain ⟨context, hreachable, hprofile, hrollover, hnext⟩ :=
    exists_reachable_decrypt ⟨.tag80, 100⟩ (by decide) master earlier (by decide)
  have hheader : Packet.decode header = .ok ⟨1, 0, 12, [], header⟩ := by
    dsimp only [header]
    rfl
  have hpacket : packet.ComesFrom frame :=
    ⟨packet, [], Packet.decode_append hheader (List.replicate 37 9), rfl⟩
  have hresult : (context.decrypt packet).result = .ok () :=
    result_decrypt (hnext packet rfl (by decide))
  obtain ⟨hlength, hoctets, -, -, -, -, -, htagged⟩ :=
    decrypt_exact master context hreachable frame packet hpacket hresult
  -- Thirty-seven octets less the ten of the tag.
  have hplain : (context.decrypt packet).packet.payload.length = 27 := by
    rw [hprofile] at hlength
    exact Nat.add_right_cancel hlength
  have hk : 20 < (context.decrypt packet).packet.payload.length := by
    rw [hplain]
    decide
  obtain ⟨_, hoctet⟩ := hoctets 20 hk
  exact ⟨context, hreachable, by rw [hrollover], hpacket, hresult, hplain, ⟨hk, hoctet⟩, htagged⟩

end Context

end SecureRtp
