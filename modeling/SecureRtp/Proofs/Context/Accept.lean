import Mathlib.Tactic.ByContra
import SecureRtp.Context.Decryption
import SecureRtp.Proofs.KeyStream.Position

/-!
# `SecureRtp.Proofs.Context.Accept`: what becomes of one packet

`Context.decrypt` has three outcomes, and this module says when each of them
comes about. `Context.Accepts` is the condition for the one that decrypts. The
other two turn the packet away and leave everything as it was; `Context.Rejects` says
with which error.

`Context.plaintext` is what decryption makes of a payload, said by the
reference stream of the session key: the payload without its tag, with the
stream of the packet's place put on, from the beginning of that stream. Packets
that came before have no part in it but through the rollover counter.

* `decrypt_of_accepts`: an accepted packet is decrypted, and `Opens` says what that is.
* `decrypt_of_not_accepts`: any other packet is turned away, and
  `result_decrypt_eq_error_iff` says with which errors.
* `keyed_decrypt`: no packet takes the context off its session key.
-/

set_option autoImplicit false

namespace SecureRtp

namespace Context

/-- The packet does not belong to another stream, and its payload has room for a
tag. -/
def Accepts (context : Context) (packet : Packet) : Prop :=
  (∀ stream ∈ context.stream, stream = packet.stream) ∧
    context.profile.tagLength ≤ packet.payload.length

/-- The errors that a packet is turned away with. The length of the payload is of no
account for a packet of another stream. -/
inductive Rejects (context : Context) (packet : Packet) : DecryptError → Prop
  /-- The context belongs to another stream. -/
  | otherStream (own : UInt32) (hown : context.stream = some own) (hother : own ≠ packet.stream) :
      Rejects context packet (.streamMismatch own packet.stream)
  /-- The payload has no room for a tag. -/
  | shortPayload (hstream : ∀ own ∈ context.stream, own = packet.stream)
      (hshort : packet.payload.length < context.profile.tagLength) :
      Rejects context packet .invalidInput

/-- The key stream of the context is one of `key`, wherever it stands. -/
def Keyed (context : Context) (key : Key) : Prop :=
  ∃ start p, context.keyStream.At key start p

/-- The payload without its tag, decrypted as the place of the packet in the
stream demands. -/
def plaintext (context : Context) (key : Key) (packet : Packet) : Octets :=
  let length := packet.payload.length - context.profile.tagLength
  let rollovers := (context.rollover.update packet.sequence).value
  let start := counterBlock packet.stream rollovers packet.sequence context.sessionSalt
  Octets.xor (packet.payload.take length) (streamOctets key start 0 length)

/-- The packet is decrypted. It loses its tag, is decrypted on the reference
stream, and has its frame rebuilt; the context takes the stream, counts the
packet, and keeps its settings and its key. -/
structure Opens (context : Context) (key : Key) (packet : Packet) (decryption : Decryption) :
    Prop where
  result : decryption.result = .ok ()
  opened : decryption.packet
    = { packet with
        payload := context.plaintext key packet
        frame := packet.frame.take packet.payloadOffset ++ context.plaintext key packet }
  stream : decryption.context.stream = some packet.stream
  rollover : decryption.context.rollover = context.rollover.update packet.sequence
  profile : decryption.context.profile = context.profile
  sessionSalt : decryption.context.sessionSalt = context.sessionSalt
  keyed : decryption.context.Keyed key

variable {context : Context} {packet : Packet} {key : Key}

/-! ### The check of the stream -/

/-- The check of the stream finds nothing exactly when the context has no stream yet or this
one. -/
theorem otherStream?_eq_none_iff (context : Context) (stream : UInt32) :
    context.otherStream? stream = none ↔ ∀ own ∈ context.stream, own = stream := by
  rw [otherStream?, Option.filter_eq_none_iff]
  simp

/-- A packet of another stream is turned away, whatever its payload. -/
theorem decrypt_of_otherStream {own : UInt32} (hown : context.stream = some own)
    (hother : own ≠ packet.stream) :
    context.decrypt packet
      = context.reject packet (.unexpectedStream own packet.stream) := by
  have hfound : context.otherStream? packet.stream = some own := by
    rw [otherStream?, hown]
    simp [Option.filter, hother]
  rw [decrypt, hfound]

/-- A payload without room for a tag is turned away. -/
theorem decrypt_of_shortPayload (hstream : ∀ own ∈ context.stream, own = packet.stream)
    (hshort : packet.payload.length < context.profile.tagLength) :
    context.decrypt packet
      = context.reject packet (.shortPayload packet.payload.length) := by
  rw [decrypt, (otherStream?_eq_none_iff _ _).mpr hstream,
    (Packet.dropTail?_eq_none_iff _ _).mpr hshort]

/-- A packet that is turned away with an error is turned away for a reason, and the error is that
of the reason. -/
theorem decrypt_of_rejects {error : DecryptError} (h : context.Rejects packet error) :
    ∃ reason, reason.error = error ∧ context.decrypt packet = context.reject packet reason := by
  cases h with
  | otherStream own hown hother => exact ⟨_, rfl, decrypt_of_otherStream hown hother⟩
  | shortPayload hstream hshort => exact ⟨_, rfl, decrypt_of_shortPayload hstream hshort⟩

/-- There is a reason for every packet that is not accepted. -/
theorem exists_rejects (h : ¬ context.Accepts packet) : ∃ error, context.Rejects packet error := by
  -- The stream is looked at first, so a wrong one decides whatever the length.
  by_cases hstream : ∀ own ∈ context.stream, own = packet.stream
  · have hshort : packet.payload.length < context.profile.tagLength :=
      Nat.lt_of_not_le fun hroom => h ⟨hstream, hroom⟩
    exact ⟨_, .shortPayload hstream hshort⟩
  · obtain ⟨own, hown⟩ := not_forall.mp hstream
    obtain ⟨hmem, hother⟩ := Classical.not_imp.mp hown
    exact ⟨_, .otherStream own hmem hother⟩

/-- A packet that is not accepted is turned away. -/
theorem decrypt_of_not_accepts (h : ¬ context.Accepts packet) :
    ∃ reason, context.decrypt packet = context.reject packet reason := by
  obtain ⟨error, hrejects⟩ := exists_rejects h
  obtain ⟨reason, -, hreject⟩ := decrypt_of_rejects hrejects
  exact ⟨reason, hreject⟩

/-- A packet that is not accepted leaves the context as it was. -/
theorem context_decrypt_of_not_accepts (h : ¬ context.Accepts packet) :
    (context.decrypt packet).context = context := by
  obtain ⟨reason, hreject⟩ := decrypt_of_not_accepts h
  rw [hreject]
  rfl

/-- A packet that is not accepted is left as it was itself. -/
theorem packet_decrypt_of_not_accepts (h : ¬ context.Accepts packet) :
    (context.decrypt packet).packet = packet := by
  obtain ⟨reason, hreject⟩ := decrypt_of_not_accepts h
  rw [hreject]
  rfl

/-- What `decrypt` does with a packet that passes both checks. -/
theorem decrypt_eq_accept (h : context.Accepts packet) :
    context.decrypt packet
      = context.accept
          { packet with payload :=
              packet.payload.take (packet.payload.length - context.profile.tagLength) } := by
  obtain ⟨hstream, hroom⟩ := h
  rw [decrypt, (otherStream?_eq_none_iff _ _).mpr hstream]
  simp only [Packet.dropTail?, hroom, if_true]

theorem result_decrypt (h : context.Accepts packet) :
    (context.decrypt packet).result = .ok () := by
  rw [decrypt_eq_accept h]
  rfl

/-- The context of an accepted packet belongs to its stream, whether it did before or
not. -/
theorem stream_decrypt (h : context.Accepts packet) :
    (context.decrypt packet).context.stream = some packet.stream := by
  rw [decrypt_eq_accept h]
  show context.stream.or (some packet.stream) = some packet.stream
  cases hstream : context.stream with
  | none => rfl
  | some own =>
      rw [h.1 own hstream]
      rfl

/-- An accepted packet is counted, and nothing else moves the counter. -/
theorem rollover_decrypt (h : context.Accepts packet) :
    (context.decrypt packet).context.rollover = context.rollover.update packet.sequence := by
  rw [decrypt_eq_accept h]
  rfl

/-- The settings and the salt stay, whatever the packet. -/
theorem settings_decrypt (context : Context) (packet : Packet) :
    (context.decrypt packet).context.profile = context.profile ∧
      (context.decrypt packet).context.sessionSalt = context.sessionSalt := by
  by_cases h : context.Accepts packet
  · rw [decrypt_eq_accept h]
    exact ⟨rfl, rfl⟩
  · rw [context_decrypt_of_not_accepts h]
    exact ⟨rfl, rfl⟩

/-- After an accepted packet, the next one is accepted if it is of the same stream and has
room for a tag. -/
theorem accepts_decrypt {next : Packet} (h : context.Accepts packet)
    (hstream : next.stream = packet.stream)
    (hroom : context.profile.tagLength ≤ next.payload.length) :
    (context.decrypt packet).context.Accepts next := by
  refine ⟨?_, ?_⟩
  · intro own hown
    rw [stream_decrypt h] at hown
    cases hown
    exact hstream.symm
  · rwa [(settings_decrypt context packet).1]

/-- The errors of decryption are the ones with a reason. -/
theorem result_decrypt_eq_error_iff {error : DecryptError} :
    (context.decrypt packet).result = .error error ↔ context.Rejects packet error := by
  constructor
  · intro hresult
    by_cases haccepts : context.Accepts packet
    · rw [result_decrypt haccepts] at hresult
      cases hresult
    · -- The packet is turned away with some error, and decryption has only one.
      obtain ⟨error', hrejects⟩ := exists_rejects haccepts
      obtain ⟨reason, rfl, hreject⟩ := decrypt_of_rejects hrejects
      rw [hreject] at hresult
      cases hresult
      exact hrejects
  · intro hrejects
    obtain ⟨reason, rfl, hreject⟩ := decrypt_of_rejects hrejects
    rw [hreject]
    rfl

/-- Decryption succeeds for the accepted packets and for no others. -/
theorem result_decrypt_eq_ok_iff :
    (context.decrypt packet).result = .ok () ↔ context.Accepts packet := by
  constructor
  · intro hresult
    by_contra hnot
    obtain ⟨reason, hreject⟩ := decrypt_of_not_accepts hnot
    rw [hreject] at hresult
    cases hresult
  · exact result_decrypt

/-- An accepted packet is decrypted. -/
theorem decrypt_of_accepts (hkey : context.Keyed key) (h : context.Accepts packet) :
    context.Opens key packet (context.decrypt packet) := by
  obtain ⟨start, p, hat⟩ := hkey
  have hlength : (packet.payload.take
      (packet.payload.length - context.profile.tagLength)).length
        = packet.payload.length - context.profile.tagLength :=
    List.length_take_of_le (Nat.sub_le _ _)
  -- The restart makes what earlier packets left in the key stream of no account.
  obtain ⟨hpayload, hmoved⟩ := (hat.reset
    (counterBlock packet.stream (context.rollover.update packet.sequence).value
      packet.sequence context.sessionSalt)).xor
    (packet.payload.take (packet.payload.length - context.profile.tagLength))
  rw [hlength] at hpayload
  refine ⟨result_decrypt h, ?_, stream_decrypt h, rollover_decrypt h,
    (settings_decrypt context packet).1, (settings_decrypt context packet).2, ?_⟩
  · rw [decrypt_eq_accept h]
    show Packet.rebuild { packet with payload := _ } = _
    rw [hpayload]
    rfl
  · rw [decrypt_eq_accept h]
    exact ⟨_, _, hmoved⟩

/-- The session key stays, whatever the packet. -/
theorem keyed_decrypt (hkey : context.Keyed key) (packet : Packet) :
    (context.decrypt packet).context.Keyed key := by
  by_cases h : context.Accepts packet
  · exact (decrypt_of_accepts hkey h).keyed
  · rwa [context_decrypt_of_not_accepts h]

end Context

end SecureRtp
