import Mathlib.Data.List.Chain
import SecureRtp.Proofs.Context.Binding
import SecureRtp.Proofs.MasterKey

/-!
# `SecureRtp.Proofs.Context.Log`: what can be read out of the log

A context logs what it does with a packet, and nothing else. This module says that the log is
enough to know the context by: who has the events knows the stream, the rollover counter and
how many packets were decrypted, without having seen a packet.

The events of one packet come first. A packet that is turned away has one event, a warning
with the values of the error (`Warns`). A packet that is decrypted has one event at most
(`levels_decrypt`): the context takes its stream, which happens once, or the counter changes,
which does not happen then, because a counter that has seen no packet adjusts nothing.

The events of a run are read by `boundStreams`, `tracedValues` and `warnings`. `Tells` is what
they have to do with the context. `Tells.decrypt` is the step and `Tells.after` the run;
`length_accepted_add_warnings` counts. `log_tells_state` puts them together.
-/

set_option autoImplicit false

namespace SecureRtp

/-! ### Reading a log -/

/-- The stream that a context took, if the event says so. -/
def Event.stream? : Event → Option UInt32
  | .bound stream => some stream
  | _ => none

/-- What the rollover counter was set to, if the event says so. -/
def Event.rollovers? : Event → Option UInt32
  | .adjusted rollovers _ => some rollovers
  | _ => none

/-- The streams in the events for looking for a fault. -/
def boundStreams (log : List Event) : List UInt32 :=
  (log.filter (·.level = .debug)).filterMap Event.stream?

/-- The values of the rollover counter in the events for following the work. -/
def tracedValues (log : List Event) : List UInt32 :=
  (log.filter (·.level = .trace)).filterMap Event.rollovers?

/-- The number of warnings. -/
def warnings (log : List Event) : Nat := log.countP (·.level = .warn)

theorem boundStreams_append (log later : List Event) :
    boundStreams (log ++ later) = boundStreams log ++ boundStreams later := by
  rw [boundStreams, List.filter_append, List.filterMap_append]
  rfl

theorem tracedValues_append (log later : List Event) :
    tracedValues (log ++ later) = tracedValues log ++ tracedValues later := by
  rw [tracedValues, List.filter_append, List.filterMap_append]
  rfl

theorem warnings_append (log later : List Event) :
    warnings (log ++ later) = warnings log + warnings later := List.countP_append

/-- The counter goes up or down by one unless it is kept. -/
theorem Adjustment.apply_of_ne_keep {adjustment : Adjustment} (h : adjustment ≠ .keep)
    (value : UInt32) :
    adjustment.apply value = value + 1 ∨ adjustment.apply value = value - 1 := by
  cases adjustment with
  | keep => exact absurd rfl h
  | increment => exact .inl rfl
  | decrement => exact .inr rfl

namespace Context

/-- The warning for a packet that is turned away with an error. -/
inductive Warns (context : Context) (packet : Packet) : DecryptError → Event → Prop
  /-- The context belongs to another stream, and the warning names both. -/
  | otherStream (own : UInt32) (hown : context.stream = some own) :
      Warns context packet (.streamMismatch own packet.stream)
        (.unexpectedStream own packet.stream)
  /-- The payload has no room for a tag, and the warning says how long it is. -/
  | shortPayload : Warns context packet .invalidInput (.shortPayload packet.payload.length)

/-- Everything that is logged while the packets come. -/
def logged (context : Context) (packets : List Packet) : List Event :=
  (context.run packets).flatMap Decryption.log

/-- What a log tells of the context that wrote it. -/
structure Tells (log : List Event) (context : Context) : Prop where
  /-- There is no more than one event of taking a stream, and it names the stream. -/
  stream : boundStreams log = context.stream.toList
  /-- The value that was logged last is the one there is, and zero if there is none. -/
  value : (tracedValues log).getLast?.getD 0 = context.rollover.value
  /-- From zero on the values go up or down by one, modulo `2 ^ 32`. -/
  steps : (0 :: tracedValues log).IsChain fun before after =>
    after = before + 1 ∨ after = before - 1

variable {context : Context} {packet : Packet} {log : List Event}

/-! ### The events of one packet -/

theorem Warns.level_eq {error : DecryptError} {warning : Event}
    (h : context.Warns packet error warning) : warning.level = .warn := by
  cases h with
  | otherStream own hown => rfl
  | shortPayload => rfl

/-- A packet that is turned away leaves one event, and it is the warning for its error. -/
theorem log_of_error {error : DecryptError}
    (h : (context.decrypt packet).result = .error error) :
    ∃ warning, context.Warns packet error warning ∧
      (context.decrypt packet).log = [warning] := by
  cases result_decrypt_eq_error_iff.mp h with
  | otherStream own hown hother =>
      rw [decrypt_of_otherStream hown hother]
      exact ⟨_, .otherStream own hown, rfl⟩
  | shortPayload hstream hshort =>
      rw [decrypt_of_shortPayload hstream hshort]
      exact ⟨_, .shortPayload, rfl⟩

/-- A packet that is not accepted leaves one event, and it has the level of warnings. This is all
that what is read out of the log depends on. -/
theorem log_of_not_accepts (h : ¬ context.Accepts packet) :
    ∃ warning : Event, warning.level = .warn ∧ (context.decrypt packet).log = [warning] := by
  obtain ⟨error, hrejects⟩ := exists_rejects h
  obtain ⟨warning, hwarns, hlog⟩ := log_of_error (result_decrypt_eq_error_iff.mpr hrejects)
  exact ⟨warning, hwarns.level_eq, hlog⟩

/-- The two events that there may be with a packet that is decrypted. -/
theorem log_decrypt (h : context.Accepts packet) :
    (context.decrypt packet).log
      = (if context.stream = none then [.bound packet.stream] else []) ++
        (if context.rollover.adjustment packet.sequence = .keep then []
          else [.adjusted (context.decrypt packet).context.rollover.value packet.sequence]) := by
  rw [rollover_decrypt h, decrypt_eq_accept h]
  show context.acceptLog packet = _
  rw [acceptLog]
  cases context.stream <;> cases context.rollover.adjustment packet.sequence <;> rfl

/-- A counter that has seen no packet adjusts nothing. -/
theorem Counting.adjustment_eq_keep (h : context.Counting) (hnone : context.stream = none)
    (sequence : UInt16) : context.rollover.adjustment sequence = .keep := by
  rw [RolloverCounter.adjustment, h.last.mp hnone]

/-- They do not come together, because the context takes its stream when it has counted
nothing yet. -/
theorem levels_decrypt (hcounting : context.Counting) (h : context.Accepts packet) :
    let log := (context.decrypt packet).log
    log.filter (·.level = .warn) = [] ∧
    log.filter (·.level = .debug)
      = (if context.stream = none then [.bound packet.stream] else []) ∧
    log.filter (·.level = .trace)
      = (if context.rollover.adjustment packet.sequence = .keep then []
        else [.adjusted (context.decrypt packet).context.rollover.value packet.sequence]) ∧
    log.length ≤ 1 := by
  intro log
  have hlog : log = _ := log_decrypt h
  rw [hlog]
  -- Without a stream the counter has seen no packet, so it is kept.
  by_cases hnone : context.stream = none
  · rw [if_pos hnone, if_pos (hcounting.adjustment_eq_keep hnone packet.sequence)]
    exact ⟨rfl, rfl, rfl, Nat.le_refl 1⟩
  · rw [if_neg hnone]
    split
    · exact ⟨rfl, rfl, rfl, Nat.zero_le 1⟩
    · exact ⟨rfl, rfl, rfl, Nat.le_refl 1⟩

/-! ### The events of a run -/

/-- An event of the level of warnings tells nothing of the context. -/
theorem Tells.warned (h : Tells log context) {warning : Event} (hlevel : warning.level = .warn) :
    Tells (log ++ [warning]) context := by
  have hbound : boundStreams [warning] = [] := by simp [boundStreams, hlevel]
  have htraced : tracedValues [warning] = [] := by simp [tracedValues, hlevel]
  refine ⟨?_, ?_, ?_⟩
  · rw [boundStreams_append, hbound, List.append_nil, h.stream]
  · rw [tracedValues_append, htraced, List.append_nil, h.value]
  · rw [tracedValues_append, htraced, List.append_nil]
    exact h.steps

/-- The events of a packet that is decrypted name its stream if the context had none, and no
stream otherwise. -/
theorem boundStreams_decrypt (h : context.Accepts packet) :
    boundStreams (context.decrypt packet).log
      = if context.stream = none then [packet.stream] else [] := by
  rw [log_decrypt h, boundStreams_append]
  split <;> split <;> rfl

/-- The events of a packet that is decrypted give the value of the counter after it if the packet
has adjusted the counter, and no value otherwise. -/
theorem tracedValues_decrypt (h : context.Accepts packet) :
    tracedValues (context.decrypt packet).log
      = if context.rollover.adjustment packet.sequence = .keep then []
        else [(context.decrypt packet).context.rollover.value] := by
  rw [log_decrypt h, tracedValues_append]
  split <;> split <;> rfl

/-- There is no warning among the events of a packet that is decrypted. -/
theorem warnings_decrypt (h : context.Accepts packet) :
    warnings (context.decrypt packet).log = 0 := by
  rw [log_decrypt h, warnings_append]
  split <;> split <;> rfl

/-- The log with the events of one packet more tells of the context after it. -/
theorem Tells.decrypt (h : Tells log context) (packet : Packet) :
    Tells (log ++ (context.decrypt packet).log) (context.decrypt packet).context := by
  by_cases haccepts : context.Accepts packet
  · have hvalue : (context.decrypt packet).context.rollover.value
        = (context.rollover.adjustment packet.sequence).apply context.rollover.value := by
      rw [rollover_decrypt haccepts, RolloverCounter.value_update]
    refine ⟨?_, ?_, ?_⟩
    · -- The stream is named now if it was not before, and it is the one of the packet.
      rw [boundStreams_append, boundStreams_decrypt haccepts, h.stream, stream_decrypt haccepts]
      cases hstream : context.stream with
      | none => rfl
      | some own =>
          rw [haccepts.1 own hstream]
          rfl
    · -- A value that is kept was logged before, and one that is new is logged now.
      rw [tracedValues_append, tracedValues_decrypt haccepts]
      split
      · rename_i hkeep
        rw [hvalue, hkeep, List.append_nil, h.value]
        rfl
      · rw [List.getLast?_concat]
        rfl
    · rw [tracedValues_append, tracedValues_decrypt haccepts]
      split
      · rw [List.append_nil]
        exact h.steps
      · rename_i hadjusts
        rw [← List.cons_append, List.isChain_append]
        refine ⟨h.steps, List.isChain_singleton _, ?_⟩
        intro before hbefore after hafter
        -- The value before is the last one that was logged, or the zero in front of all.
        rw [List.getLast?_cons, h.value] at hbefore
        cases hbefore
        cases hafter
        rw [hvalue]
        exact Adjustment.apply_of_ne_keep hadjusts _
  · -- The context is the same, and a warning tells nothing of it.
    obtain ⟨warning, hlevel, hlog⟩ := log_of_not_accepts haccepts
    rw [hlog, context_decrypt_of_not_accepts haccepts]
    exact h.warned hlevel

/-- The log with the events of any packets more tells of the context after them. The induction is
on the packets, with the log so far and the context general. -/
theorem Tells.after (h : Tells log context) (packets : List Packet) :
    Tells (log ++ context.logged packets) (context.after packets) := by
  induction packets generalizing context log with
  | nil =>
      show Tells (log ++ []) context
      rwa [List.append_nil]
  | cons packet rest ih =>
      have hrest := ih (h.decrypt packet)
      rwa [List.append_assoc] at hrest

/-- Every packet was decrypted, or there is a warning of it. -/
theorem length_accepted_add_warnings (context : Context) (packets : List Packet) :
    (context.accepted packets).length + warnings (context.logged packets) = packets.length := by
  induction packets generalizing context with
  | nil => rfl
  | cons packet rest ih =>
      have hlogged : context.logged (packet :: rest)
          = (context.decrypt packet).log ++ (context.decrypt packet).context.logged rest := rfl
      rw [hlogged, warnings_append]
      -- The packet counts as one that was decrypted or as one with a warning, and never as both.
      by_cases h : context.Accepts packet
      · rw [accepted_cons_of_accepts h, warnings_decrypt h, Nat.zero_add, List.length_cons,
          Nat.add_right_comm, ih, List.length_cons]
      · obtain ⟨warning, hlevel, hlog⟩ := log_of_not_accepts h
        have hone : warnings [warning] = 1 := by simp [warnings, hlevel]
        rw [accepted_cons_of_not_accepts h, context_decrypt_of_not_accepts h, hlog, hone,
          Nat.add_left_comm, ih, List.length_cons, Nat.add_comm]

/-- The context has a stream as soon as a packet was decrypted. -/
theorem stream_after_eq_none_iff (hnone : context.stream = none) (packets : List Packet) :
    (context.after packets).stream = none ↔ context.accepted packets = [] := by
  induction packets with
  | nil => exact iff_of_true hnone rfl
  | cons packet rest ih =>
      by_cases h : context.Accepts packet
      · rw [Context.after, stream_after_of_stream (stream_decrypt h), accepted_cons_of_accepts h]
        exact iff_of_false (Option.some_ne_none _) (List.cons_ne_nil _ _)
      · rw [Context.after, context_decrypt_of_not_accepts h, accepted_cons_of_not_accepts h]
        exact ih

/-! ### A context that was just made -/

/-- A context is made only with a key and a salt of the right lengths. -/
theorem exists_fresh_of_build {builder : Builder} {key salt : Octets}
    (h : (builder.build key salt).result = .ok context) :
    ∃ master : MasterKey, master.key.toList = key ∧ master.salt.toList = salt ∧
      context.Fresh builder master := by
  have hkey : key.length = 16 := by
    by_contra hkey
    rw [Builder.build, MasterKey.ofOctets_of_key _ hkey] at h
    cases h
  have hsalt : salt.length = 14 := by
    by_contra hsalt
    rw [Builder.build, MasterKey.ofOctets_of_salt _ hkey hsalt] at h
    cases h
  exact ⟨⟨key.toVector hkey, salt.toVector hsalt⟩, rfl, rfl, fresh_of_build h⟩

/-- Nothing is logged when no context can be made. -/
theorem log_build_of_error {builder : Builder} {key salt : Octets} {error : SetupError}
    (h : (builder.build key salt).result = .error error) : (builder.build key salt).log = [] := by
  rw [Builder.build] at h ⊢
  split at h
  · cases h
  · rfl

/-- One event is logged when a context is made, and it names the profile. -/
theorem log_build_of_ok {builder : Builder} {key salt : Octets}
    (h : (builder.build key salt).result = .ok context) :
    (builder.build key salt).log = [.created builder.profile] := by
  rw [Builder.build] at h ⊢
  split at h
  · rfl
  · cases h

/-- The event of making a context names no stream and gives no value, and a context that was just
made has no stream and the value zero. -/
theorem Fresh.tells {builder : Builder} {master : MasterKey}
    (h : context.Fresh builder master) : Tells [.created builder.profile] context where
  stream := by
    rw [h.stream]
    rfl
  value := by
    rw [h.rollover]
    rfl
  steps := List.isChain_singleton 0

/-- The log of a context, from the building of it on. A context that cannot be made logs
nothing, and one that can one event. Then, packet by packet: one that is turned away has one
event, the warning for its error. One that is decrypted has no warning, the event of taking
its stream exactly when it is the first, and the event of an adjustment, with the value after
it, exactly when the counter adjusts, and never both. And after any packets: the log tells the
stream and the value of the rollover counter, and as many packets were decrypted as there are
packets without a warning. -/
theorem log_tells_state (builder : Builder) (key salt : Octets) :
    let made := builder.build key salt
    (∀ error, made.result = .error error → made.log = []) ∧
    (∀ context, made.result = .ok context →
      made.log = [.created builder.profile] ∧
      (∀ before packet,
        let now := context.after before
        let decryption := now.decrypt packet
        (∀ error, decryption.result = .error error →
          ∃ warning, now.Warns packet error warning ∧ warning.level = .warn ∧
            decryption.log = [warning]) ∧
        (decryption.result = .ok () →
          decryption.log.filter (·.level = .warn) = [] ∧
          decryption.log.filter (·.level = .debug)
            = (if context.accepted before = [] then [.bound packet.stream] else []) ∧
          decryption.log.filter (·.level = .trace)
            = (if now.rollover.adjustment packet.sequence = .keep then []
              else [.adjusted decryption.context.rollover.value packet.sequence]) ∧
          decryption.log.length ≤ 1)) ∧
      (∀ packets,
        let log := made.log ++ context.logged packets
        Tells log (context.after packets) ∧ warnings log ≤ packets.length ∧
          (context.accepted packets).length = packets.length - warnings log)) := by
  intro made
  refine ⟨fun error => log_build_of_error, ?_⟩
  intro context hmade
  have hcreated : made.log = [.created builder.profile] := log_build_of_ok hmade
  obtain ⟨master, rfl, rfl, hfresh⟩ := exists_fresh_of_build hmade
  refine ⟨hcreated, ?_, ?_⟩
  · intro before packet now decryption
    refine ⟨?_, ?_⟩
    · intro error herror
      obtain ⟨warning, hwarns, hlog⟩ := log_of_error herror
      exact ⟨warning, hwarns, hwarns.level_eq, hlog⟩
    · intro hok
      have haccepts : now.Accepts packet := result_decrypt_eq_ok_iff.mp hok
      have hcounting : now.Counting := Reachable.counting ⟨builder, context, before, hmade, rfl⟩
      obtain ⟨hwarn, hdebug, htrace, hlength⟩ := levels_decrypt hcounting haccepts
      -- That the context has no stream is that it has decrypted nothing yet.
      rw [if_congr (stream_after_eq_none_iff hfresh.stream before) rfl rfl] at hdebug
      exact ⟨hwarn, hdebug, htrace, hlength⟩
  · intro packets log
    -- The event of making the context is no warning.
    have hwarnings : warnings log = warnings (context.logged packets) := by
      show warnings (made.log ++ _) = _
      rw [hcreated, warnings_append]
      exact Nat.zero_add _
    have hcount := length_accepted_add_warnings context packets
    have htells : Tells log (context.after packets) := by
      show Tells (made.log ++ _) _
      rw [hcreated]
      exact hfresh.tells.after packets
    exact ⟨htells, by omega, by omega⟩

/-- The stream zero is taken with the number 65535, a packet of another stream is warned of,
and the number zero begins a round. In the log of the three there is all of it. -/
theorem log_tells_state_over_seam :
    let master : MasterKey := ⟨Vector.replicate 16 0x2b, Vector.replicate 14 0xf0⟩
    let made := Builder.build ⟨.tag80, 100⟩ master.key.toList master.salt.toList
    let first : Packet := ⟨0, 65535, 12, List.replicate 10 0, List.replicate 22 0⟩
    let other : Packet := ⟨5, 2, 12, List.replicate 30 0, List.replicate 42 0⟩
    let second : Packet := ⟨0, 0, 12, List.replicate 17 0, List.replicate 29 0⟩
    ∃ context, made.result = .ok context ∧ made.log = [.created .tag80] ∧
      (let taken := context.decrypt first
       taken.result = .ok () ∧ taken.log.filter (·.level = .debug) = [.bound 0] ∧
        (taken.context.decrypt other).result = .error (.streamMismatch 0 5) ∧
        (taken.context.decrypt other).log = [.unexpectedStream 0 5] ∧
        (taken.context.decrypt second).result = .ok () ∧
        (taken.context.decrypt second).log.filter (·.level = .trace) = [.adjusted 1 0]) ∧
      (let log := made.log ++ context.logged [first, other, second]
       boundStreams log = [0] ∧ warnings log = 1) := by
  intro master made first other second
  obtain ⟨context, hbuild, hfresh⟩ := exists_build_fresh ⟨.tag80, 100⟩ (by decide) master
  have haccepts : context.Accepts first := hfresh.accepts (by decide)
  have hstream := stream_decrypt haccepts
  have hrollover : (context.decrypt first).context.rollover = ⟨0, some 65535, 100⟩ := by
    rw [rollover_decrypt haccepts, hfresh.rollover]
    rfl
  have hsecond : (context.decrypt first).context.Accepts second :=
    accepts_decrypt haccepts rfl (by rw [hfresh.profile]; decide)
  have hother : (context.decrypt first).context.Rejects other (.streamMismatch 0 5) :=
    .otherStream 0 hstream (by decide)
  obtain ⟨hcreated, hpackets, hruns⟩ :=
    (log_tells_state ⟨.tag80, 100⟩ master.key.toList master.salt.toList).2 context hbuild
  obtain ⟨-, hdebug, -, -⟩ := (hpackets [] first).2 (result_decrypt haccepts)
  have hresult := result_decrypt_eq_error_iff.mpr hother
  obtain ⟨warning, hwarns, -, hwarning⟩ := (hpackets [first] other).1 _ hresult
  obtain ⟨-, -, htrace, -⟩ := (hpackets [first] second).2 (result_decrypt hsecond)
  obtain ⟨htells, hle, hcount⟩ := hruns [first, other, second]
  refine ⟨context, hbuild, hcreated, ⟨result_decrypt haccepts, hdebug, hresult, ?_,
    result_decrypt hsecond, ?_⟩, ?_, ?_⟩
  · cases hwarns with
    | otherStream own hown => exact hwarning
  · have hvalue : ((context.decrypt first).context.decrypt second).context.rollover.value = 1 := by
      rw [rollover_decrypt hsecond, hrollover]
      decide
    have hadjusts : (context.decrypt first).context.rollover.adjustment 0 ≠ .keep := by
      rw [hrollover]
      decide
    rw [← hvalue]
    exact htrace.trans (if_neg hadjusts)
  · have hafter : (context.after [first, other, second]).stream = some 0 :=
      stream_after_of_stream hstream [other, second]
    rw [htells.stream, hafter]
    rfl
  · have hnot : ¬ (context.decrypt first).context.Accepts other := fun haccepted =>
      absurd (haccepted.1 0 hstream) (by decide)
    rw [accepted_cons_of_accepts haccepts, accepted_cons_of_not_accepts hnot,
      accepted_cons_of_accepts hsecond] at hcount
    -- Two of the three were decrypted, so there is one warning.
    have htwo : 2 = 3 - warnings (made.log ++ context.logged [first, other, second]) := hcount
    omega

end Context

end SecureRtp
