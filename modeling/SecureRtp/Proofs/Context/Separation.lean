import Mathlib
import SecureRtp.Proofs.Context.Payload
import SecureRtp.Proofs.CounterBlock

/-!
# `SecureRtp.Proofs.Context.Separation`: no two packets share a block

Two payloads that have the same octets of key stream put on give away their exclusive or.
So the blocks that the cipher encrypts for one packet must not be encrypted for another
one under the same key. `Decryption.inputs` are the blocks that the cipher was given for
a packet.

Which ones they are follows from how the key stream is consumed: they are the blocks that
follow the counter block of the packet, one for every sixteen octets of plaintext or part
of sixteen (`inputs_decrypt`), and no others are put on the payload
(`getElem_payload_decrypt`). That they are apart follows from how counter blocks are made.

`inputs_disjoint` puts the two together, for one context over time as well as for several
contexts that were made from the same master key.
-/

set_option autoImplicit false

namespace SecureRtp

/-- The blocks that the cipher was given for a packet that was decrypted. The key stream
begins again with each of these, so they are the ones since it began. -/
def Decryption.inputs (decryption : Decryption) : Set Block :=
  decryption.context.keyStream.source.inputs

namespace Context

variable {context : Context} {packet : Packet} {key : Key}

/-! ### The blocks of one packet -/

/-- The cipher was given the blocks that follow the counter block of the packet, as many as
the payload has octets for. -/
theorem inputs_decrypt (hkey : context.Keyed key) (h : context.Accepts packet) :
    (context.decrypt packet).inputs
      = {block | ∃ k < (context.decrypt packet).packet.payload.length,
          block = blockAfter
            (counterBlock packet.stream (context.decrypt packet).context.rollover.value
              packet.sequence context.sessionSalt) (k / 16)} := by
  obtain ⟨start, p, hat⟩ := hkey
  rw [length_payload_decrypt h, rollover_decrypt h, Decryption.inputs, decrypt_eq_accept h]
  generalize hcounter : counterBlock packet.stream
    (context.rollover.update packet.sequence).value packet.sequence context.sessionSalt = counter
  -- The restart empties the buffer, so nothing is left over before the payload.
  have hempty : (context.keyStream.reset counter).available < 16 := by
    show 0 < 16
    decide
  have hmoved := ((hat.reset counter).xor
    (packet.payload.take (packet.payload.length - context.profile.tagLength))).2
  rw [List.length_take_of_le (Nat.sub_le _ _), Nat.zero_add] at hmoved
  rw [← hmoved.inputs_eq (KeyStream.available_xor_lt hempty _), ← hcounter]
  rfl

/-! ### The blocks of two packets -/

/-- The blocks of packets are apart under one salt, if the packets differ in what goes into
the counter block and none is longer than the counting room. -/
theorem disjoint_blocks {salt : Salt} {stream stream' rollovers rollovers' : UInt32}
    {sequence sequence' : UInt16} {n n' : Nat} (hn : n ≤ 2 ^ 20) (hn' : n' ≤ 2 ^ 20)
    (hdiffer : (stream, rollovers, sequence) ≠ (stream', rollovers', sequence')) :
    Disjoint
      {block | ∃ k < n, block = blockAfter (counterBlock stream rollovers sequence salt) (k / 16)}
      {block | ∃ k < n',
        block = blockAfter (counterBlock stream' rollovers' sequence' salt) (k / 16)} := by
  rw [Set.disjoint_left]
  -- The number of a common block tells the fields of both packets, which differ.
  rintro block ⟨k, hk, rfl⟩ ⟨k', hk', hsame⟩
  have hvalue := congrArg (fun b : Block => BigEndian.value b.toList) hsame
  simp only [value_blockAfter] at hvalue
  obtain ⟨hstream, hrollovers, hsequence, -⟩ :=
    counterBlock_add_inj (by omega) (by omega) hvalue
  exact hdiffer (by rw [hstream, hrollovers, hsequence])

/-- No block of the key stream is shared. First, a counter block and a block number tell
the stream, the rollover counter, the sequence number and the block number. Second, for a
packet that is decrypted, the blocks that the cipher is given are exactly the ones whose
encryption is put on the payload. Third, for two packets that are decrypted, by contexts of
one master key and wherever these are in their runs, the blocks have none in common, if the
packets differ in the stream, the rollover counter or the sequence number and have no more
than `2 ^ 20` octets of plaintext. -/
theorem inputs_disjoint (master : MasterKey) :
    (∀ (salt : Salt) (stream stream' rollovers rollovers' : UInt32)
      (sequence sequence' : UInt16) (j j' : Nat), j < 65536 → j' < 65536 →
      (BigEndian.value (counterBlock stream rollovers sequence salt).toList + j) % 2 ^ 128
        = (BigEndian.value (counterBlock stream' rollovers' sequence' salt).toList + j')
            % 2 ^ 128 →
      stream = stream' ∧ rollovers = rollovers' ∧ sequence = sequence' ∧ j = j') ∧
    (∀ (context : Context) (packet : Packet), context.Reachable master →
      (context.decrypt packet).result = .ok () →
      let start := counterBlock packet.stream (context.decrypt packet).context.rollover.value
        packet.sequence master.sessionSalt
      (context.decrypt packet).inputs
        = {block | ∃ k < (context.decrypt packet).packet.payload.length,
            block = blockAfter start (k / 16)} ∧
      ∀ (k : Nat) (hk : k < (context.decrypt packet).packet.payload.length),
        ∃ hk' : k < packet.payload.length,
          (context.decrypt packet).packet.payload[k]
            = packet.payload[k] ^^^
                (Aes.encrypt master.sessionKey (blockAfter start (k / 16))).get (Fin.ofNat 16 k)) ∧
    (∀ (context context' : Context) (packet packet' : Packet),
      context.Reachable master → context'.Reachable master →
      (context.decrypt packet).result = .ok () → (context'.decrypt packet').result = .ok () →
      (context.decrypt packet).packet.payload.length ≤ 2 ^ 20 →
      (context'.decrypt packet').packet.payload.length ≤ 2 ^ 20 →
      (packet.stream, (context.decrypt packet).context.rollover.value, packet.sequence)
        ≠ (packet'.stream, (context'.decrypt packet').context.rollover.value,
            packet'.sequence) →
      Disjoint (context.decrypt packet).inputs (context'.decrypt packet').inputs) := by
  refine ⟨?_, ?_, ?_⟩
  · intro salt stream stream' rollovers rollovers' sequence sequence' j j' hj hj' h
    exact counterBlock_add_inj hj hj' h
  · intro context packet hreachable hresult start
    have hkeys := hreachable.hasKeys
    have haccepts := result_decrypt_eq_ok_iff.mp hresult
    constructor
    · rw [inputs_decrypt hkeys.keyed haccepts, hkeys.sessionSalt]
    · intro k hk
      have hlength := length_payload_decrypt haccepts
      refine ⟨by omega, ?_⟩
      rw [getElem_payload_decrypt hkeys.keyed haccepts hk, hkeys.sessionSalt]
  · intro context context' packet packet' hreachable hreachable' hresult hresult' hn hn' hdiffer
    have hkeys := hreachable.hasKeys
    have hkeys' := hreachable'.hasKeys
    -- Both contexts have the salt of the master key, whatever their settings.
    rw [inputs_decrypt hkeys.keyed (result_decrypt_eq_ok_iff.mp hresult),
      inputs_decrypt hkeys'.keyed (result_decrypt_eq_ok_iff.mp hresult'), hkeys.sessionSalt,
      hkeys'.sessionSalt]
    exact disjoint_blocks hn hn' hdiffer

/-- Two contexts with different settings, the second one in the middle of its run, and two
neighbouring packets of one stream. -/
theorem inputs_disjoint_neighbours :
    let master : MasterKey := ⟨Vector.replicate 16 0x2b, Vector.replicate 14 0xf0⟩
    let packet : Packet := ⟨1, 65535, 12, List.replicate 30 0, List.replicate 42 0⟩
    let packet' : Packet := ⟨1, 0, 12, List.replicate 25 9, List.replicate 37 9⟩
    ∃ context context' : Context,
      context.Reachable master ∧ context'.Reachable master ∧
      (context.decrypt packet).result = .ok () ∧ (context'.decrypt packet').result = .ok () ∧
      (context.decrypt packet).packet.payload.length ≤ 2 ^ 20 ∧
      (context'.decrypt packet').packet.payload.length ≤ 2 ^ 20 ∧
      Disjoint (context.decrypt packet).inputs (context'.decrypt packet').inputs := by
  intro master packet packet'
  obtain ⟨context, hbuild, hfresh⟩ := exists_build_fresh ⟨.tag80, 100⟩ (by decide) master
  obtain ⟨context', hreachable', hprofile', -, hnext'⟩ :=
    exists_reachable_decrypt ⟨.tag32, 0⟩ (by decide) master packet (by decide)
  have hreachable : context.Reachable master := ⟨_, context, [], hbuild, rfl⟩
  have haccepts : context.Accepts packet := hfresh.accepts (by decide)
  have haccepts' : context'.Accepts packet' := hnext' packet' rfl (by decide)
  have hn : (context.decrypt packet).packet.payload.length ≤ 2 ^ 20 := by
    rw [length_payload_decrypt haccepts, hfresh.profile]
    decide
  have hn' : (context'.decrypt packet').packet.payload.length ≤ 2 ^ 20 := by
    rw [length_payload_decrypt haccepts', hprofile']
    decide
  exact ⟨context, _, hreachable, hreachable', result_decrypt haccepts, result_decrypt haccepts',
    hn, hn', (inputs_disjoint master).2.2 _ _ packet packet' hreachable hreachable'
      (result_decrypt haccepts) (result_decrypt haccepts') hn hn' (by simp [packet, packet'])⟩

end Context

end SecureRtp
