import SecureRtp.Proofs.Context.Rejection
import SecureRtp.Proofs.Rollover.Round

/-!
# `SecureRtp.Proofs.Context.Binding`: the context beside its rollover counter

A context is more than a rollover counter, because it has to choose a stream and turn
packets away. This module says that the counter in it is nevertheless a plain counter:
it stands where a counter of its own would stand after the sequence numbers of the
packets that were decrypted, and of no others.

Which packets these are is said without the context. A run has two phases. Until a
payload has room for a tag, nothing happens (`run_of_short`, `after_of_short`). The first
packet with room decides the stream for good (`stream_after_of_stream`), and from then on
`answer` says what comes of a packet from the packet alone (`result_run_of_stream`).

* `rollover_after`: the counter of the context, after any run from any state.
* `Counting`: a context without a stream has counted nothing. It is kept by every packet.
* `build_follows_counter`: all of it for a context that was just made.
-/

set_option autoImplicit false

namespace SecureRtp

namespace Context

/-- What a context of the stream `own` answers to a packet, with tags of `tagLength`
octets. -/
def answer (own : UInt32) (tagLength : Nat) (packet : Packet) : Except DecryptError Unit :=
  if packet.stream ≠ own then .error (.streamMismatch own packet.stream)
  else if packet.payload.length < tagLength then .error .invalidInput
  else .ok ()

variable {context : Context} {packet : Packet} {packets : List Packet} {own : UInt32}

/-! ### Before the first packet with room -/

/-- A packet without room for a tag, given to a context without a stream. There is no stream yet
to compare with, so it is turned away for its length, whatever its own stream is. -/
theorem decrypt_of_short (hnone : context.stream = none)
    (hshort : packet.payload.length < context.profile.tagLength) :
    context.decrypt packet
      = context.reject packet (.shortPayload packet.payload.length) :=
  decrypt_of_shortPayload (by simp [hnone]) hshort

/-- Any number of packets without room for a tag, given to a context without a stream. Each is
turned away for the length of its own payload. -/
theorem run_of_short (hnone : context.stream = none)
    (hshort : ∀ packet ∈ packets, packet.payload.length < context.profile.tagLength) :
    context.run packets
      = packets.map fun packet => context.reject packet (.shortPayload packet.payload.length) := by
  induction packets with
  | nil => rfl
  | cons packet rest ih =>
      obtain ⟨hfirst, hrest⟩ := List.forall_mem_cons.mp hshort
      rw [run, decrypt_of_short hnone hfirst, List.map_cons]
      exact congrArg (_ :: ·) (ih hrest)

/-- Packets without room for a tag leave a context without a stream as it was, so the next packet
finds it as the first one did. -/
theorem after_of_short (hnone : context.stream = none)
    (hshort : ∀ packet ∈ packets, packet.payload.length < context.profile.tagLength) :
    context.after packets = context := by
  induction packets with
  | nil => rfl
  | cons packet rest ih =>
      obtain ⟨hfirst, hrest⟩ := List.forall_mem_cons.mp hshort
      rw [after, decrypt_of_short hnone hfirst]
      exact ih hrest

/-- Packets without room for a tag at the beginning of a run are not among those that are
decrypted. No stream has to be assumed here: such a packet is not accepted by any context. -/
theorem accepted_append_of_short
    (hshort : ∀ packet ∈ packets, packet.payload.length < context.profile.tagLength)
    (later : List Packet) : context.accepted (packets ++ later) = context.accepted later := by
  induction packets with
  | nil => rfl
  | cons packet rest ih =>
      obtain ⟨hfirst, hrest⟩ := List.forall_mem_cons.mp hshort
      have hnot : ¬ context.Accepts packet := fun haccepts => Nat.not_le_of_lt hfirst haccepts.2
      rw [List.cons_append, accepted_cons_of_not_accepts hnot]
      exact ih hrest

/-! ### With a stream -/

/-- A context of the stream `own` accepts the packets of this stream that have room for a tag. -/
theorem accepts_iff_of_stream (hown : context.stream = some own) (packet : Packet) :
    context.Accepts packet ↔
      packet.stream = own ∧ context.profile.tagLength ≤ packet.payload.length := by
  rw [Accepts, hown]
  constructor
  · intro ⟨hstream, hroom⟩
    exact ⟨(hstream own rfl).symm, hroom⟩
  · intro ⟨hstream, hroom⟩
    refine ⟨?_, hroom⟩
    intro stream hmem
    cases hmem
    exact hstream.symm

/-- A context that has a stream keeps it, whether the packet is decrypted or turned away. -/
theorem stream_decrypt_of_stream (hown : context.stream = some own) (packet : Packet) :
    (context.decrypt packet).context.stream = some own := by
  by_cases h : context.Accepts packet
  · rw [stream_decrypt h, ((accepts_iff_of_stream hown packet).mp h).1]
  · rw [context_decrypt_of_not_accepts h, hown]

/-- A context that has a stream keeps it over any packets. -/
theorem stream_after_of_stream (hown : context.stream = some own) (packets : List Packet) :
    (context.after packets).stream = some own :=
  after_induction (P := (·.stream = some own)) hown
    (fun _ packet h => stream_decrypt_of_stream h packet) packets

/-- What a context of the stream `own` says to a packet is `answer own`. Its counter and its key
stream have no part in it. -/
theorem result_decrypt_of_stream (hown : context.stream = some own) (packet : Packet) :
    (context.decrypt packet).result = answer own context.profile.tagLength packet := by
  -- The cases of `answer` are those of `Rejects` and `Accepts`, in the order of the checks.
  rw [answer]
  split
  · rename_i hother
    exact result_decrypt_eq_error_iff.mpr (.otherStream own hown (Ne.symm hother))
  · rename_i hsame
    have hstream : packet.stream = own := not_not.mp hsame
    split
    · rename_i hshort
      refine result_decrypt_eq_error_iff.mpr (.shortPayload ?_ hshort)
      intro stream hmem
      rw [hown] at hmem
      cases hmem
      exact hstream.symm
    · rename_i hroom
      exact result_decrypt ((accepts_iff_of_stream hown packet).mpr
        ⟨hstream, Nat.le_of_not_lt hroom⟩)

/-- What a context of the stream `own` says to any packets is `answer own` for each of them by
itself, because no packet changes the stream or the length of the tag. -/
theorem result_run_of_stream (hown : context.stream = some own) (packets : List Packet) :
    (context.run packets).map Decryption.result
      = packets.map (answer own context.profile.tagLength) := by
  induction packets generalizing context with
  | nil => rfl
  | cons packet rest ih =>
      rw [run, List.map_cons, List.map_cons, result_decrypt_of_stream hown,
        ih (stream_decrypt_of_stream hown packet), (settings_decrypt context packet).1]

/-- A context with a stream decrypts the packets of the stream that have room for a tag. -/
theorem accepted_of_stream (hown : context.stream = some own) (packets : List Packet) :
    context.accepted packets
      = packets.filter fun packet =>
          packet.stream = own ∧ context.profile.tagLength ≤ packet.payload.length := by
  induction packets generalizing context with
  | nil => rfl
  | cons packet rest ih =>
      -- Accepted or not, the packet leaves the stream and the length of the tags as they are.
      have hiff := accepts_iff_of_stream hown packet
      by_cases h : context.Accepts packet
      · rw [accepted_cons_of_accepts h, ih (stream_decrypt_of_stream hown packet),
          List.filter_cons_of_pos (by rwa [decide_eq_true_iff, ← hiff]),
          (settings_decrypt context packet).1]
      · rw [accepted_cons_of_not_accepts h, ih hown,
          List.filter_cons_of_neg (by rwa [decide_eq_true_iff, ← hiff])]

/-! ### The counter -/

/-- The counter of the context has counted the packets that were decrypted. -/
theorem rollover_after (context : Context) (packets : List Packet) :
    (context.after packets).rollover
      = context.rollover.run ((context.accepted packets).map Packet.sequence) := by
  induction packets generalizing context with
  | nil => rfl
  | cons packet rest ih =>
      by_cases h : context.Accepts packet
      · rw [after, ih, accepted_cons_of_accepts h, List.map_cons, RolloverCounter.run_cons,
          rollover_decrypt h]
      · rw [after, context_decrypt_of_not_accepts h, ih, accepted_cons_of_not_accepts h]

/-- A context has a stream exactly when it has seen a sequence number, and has counted
nothing before. -/
structure Counting (context : Context) : Prop where
  /-- Neither the stream nor a last sequence number is there, or both are. -/
  last : context.stream = none ↔ context.rollover.last = none
  /-- Without a stream, no round has been counted. -/
  value : context.stream = none → context.rollover.value = 0

/-- A packet keeps `Counting`. One that is decrypted brings the stream and the last sequence
number with it, and any other changes neither. -/
theorem Counting.decrypt (h : context.Counting) (packet : Packet) :
    (context.decrypt packet).context.Counting := by
  by_cases haccepts : context.Accepts packet
  · -- Both are there after a packet that is decrypted.
    have hstream := stream_decrypt haccepts
    have hlast : (context.decrypt packet).context.rollover.last = some packet.sequence := by
      rw [rollover_decrypt haccepts, RolloverCounter.last_update]
    exact ⟨by simp [hstream, hlast], by simp [hstream]⟩
  · rwa [context_decrypt_of_not_accepts haccepts]

/-- A context that was just made has no stream and no last sequence number, and its counter is at
zero. -/
theorem Fresh.counting {builder : Builder} {master : MasterKey}
    (h : context.Fresh builder master) : context.Counting where
  last := by simp [h.stream, h.rollover]
  value := by simp [h.rollover]

/-- `Counting` holds of every context that a run of one made from a master key can lead to. -/
theorem Reachable.counting {master : MasterKey} (h : context.Reachable master) :
    context.Counting := by
  obtain ⟨builder, fresh, packets, hbuild, rfl⟩ := h
  exact after_induction (P := Counting) (fresh_of_build hbuild).counting
    (fun _ packet h => h.decrypt packet) packets

/-- A context beside a counter of its own. As long as no payload has room for a tag, every
packet fails and the context stays as it was made. The first packet with room decides the
stream for good, whatever its number; it is decrypted, and of the packets behind it those
are that are of its stream and have room. After every list of packets the context's
counter is the plain one after the sequence numbers of the packets decrypted, and the
context has a stream exactly when it has a last sequence number. -/
theorem build_follows_counter (builder : Builder) (hlimit : builder.maxDisorder < 0x8000)
    (master : MasterKey) :
    ∃ context counter,
      (builder.build master.key.toList master.salt.toList).result = .ok context ∧
      RolloverCounter.new builder.maxDisorder = .ok counter ∧
      ∀ packets : List Packet,
        ((∀ packet ∈ packets, packet.payload.length < builder.profile.tagLength) →
          (context.run packets).map Decryption.result
            = packets.map (fun _ => .error .invalidInput) ∧
          (context.after packets).stream = none ∧
          (context.after packets).rollover.value = 0 ∧
          (context.after packets).rollover.last = none) ∧
        (∀ early first later, packets = early ++ first :: later →
          (∀ packet ∈ early, packet.payload.length < builder.profile.tagLength) →
          builder.profile.tagLength ≤ first.payload.length →
            (context.run packets).map Decryption.result
              = early.map (fun _ => .error .invalidInput) ++
                  .ok () :: later.map (answer first.stream builder.profile.tagLength) ∧
            context.accepted packets
              = first :: later.filter (fun packet => packet.stream = first.stream ∧
                  builder.profile.tagLength ≤ packet.payload.length) ∧
            (context.after packets).stream = some first.stream) ∧
        (context.after packets).rollover
          = counter.run ((context.accepted packets).map Packet.sequence) ∧
        ((context.after packets).stream = none ↔
          (context.after packets).rollover.last = none) ∧
        ((context.after packets).stream = none →
          (context.after packets).rollover.value = 0) := by
  obtain ⟨context, hbuild, hfresh⟩ := exists_build_fresh builder hlimit master
  refine ⟨context, _, hbuild, (RolloverCounter.new_eq_ok_iff _ _).mpr ⟨hlimit, rfl⟩, ?_⟩
  intro packets
  -- From here on the profile and the counter are those of the context.
  rw [← hfresh.profile, ← hfresh.rollover]
  have hcounting := Reachable.counting ⟨builder, context, packets, hbuild, rfl⟩
  refine ⟨?_, ?_, rollover_after context packets, hcounting.last, hcounting.value⟩
  · intro hshort
    rw [run_of_short hfresh.stream hshort, after_of_short hfresh.stream hshort, hfresh.stream,
      hfresh.rollover, List.map_map]
    exact ⟨rfl, rfl, rfl, rfl⟩
  · intro early first later hpackets hshort hroom
    subst hpackets
    -- The first packet with room finds the context as it was made, and gives it its stream.
    have haccepts : context.Accepts first := ⟨by simp [hfresh.stream], hroom⟩
    have hstream := stream_decrypt haccepts
    refine ⟨?_, ?_, ?_⟩
    · rw [run_append, after_of_short hfresh.stream hshort, run_of_short hfresh.stream hshort,
        List.map_append, List.map_map, run, List.map_cons, result_decrypt haccepts,
        result_run_of_stream hstream, (settings_decrypt context first).1]
      rfl
    · rw [accepted_append_of_short hshort, accepted_cons_of_accepts haccepts,
        accepted_of_stream hstream, (settings_decrypt context first).1]
    · rw [after_append, after_of_short hfresh.stream hshort]
      exact stream_after_of_stream hstream later

/-- The stream zero is a stream like any other. A packet without room comes before it, and
one of another stream in the middle; the sequence number goes over the seam. -/
theorem build_follows_counter_stream_zero :
    let master : MasterKey := ⟨Vector.replicate 16 0x2b, Vector.replicate 14 0xf0⟩
    let short : Packet := ⟨5, 1, 12, [1, 2, 3], List.replicate 15 0⟩
    let first : Packet := ⟨0, 65535, 12, List.replicate 10 0, List.replicate 22 0⟩
    let other : Packet := ⟨5, 2, 12, List.replicate 30 0, List.replicate 42 0⟩
    let second : Packet := ⟨0, 0, 12, List.replicate 17 0, List.replicate 29 0⟩
    (100 : UInt16) < 0x8000 ∧
      ∃ context,
        (Builder.build ⟨.tag80, 100⟩ master.key.toList master.salt.toList).result
          = .ok context ∧
        (context.run [short, first, other, second]).map Decryption.result
          = [.error .invalidInput, .ok (), .error (.streamMismatch 0 5), .ok ()] ∧
        (context.after [short, first, other, second]).stream = some 0 ∧
        (context.after [short, first, other, second]).rollover.value = 1 := by
  intro master short first other second
  obtain ⟨context, counter, hbuild, hcounter, hruns⟩ :=
    build_follows_counter ⟨.tag80, 100⟩ (by decide) master
  obtain ⟨-, hphases, hrollover, -⟩ := hruns [short, first, other, second]
  obtain ⟨hresults, haccepted, hstream⟩ :=
    hphases [short] first [other, second] rfl (by decide) (by decide)
  refine ⟨by decide, context, hbuild, hresults, hstream, ?_⟩
  obtain ⟨-, rfl⟩ := (RolloverCounter.new_eq_ok_iff _ _).mp hcounter
  rw [hrollover, haccepted]
  decide

end Context

end SecureRtp
