import SecureRtp.Proofs.Context.Build

/-!
# `SecureRtp.Proofs.Context.Run`: packets one after another

A context is given packets in the order of a list. `Context.run` lists what comes
of each of them, and `Context.after` is the context at the end. Nothing is assumed
of the packets: they may be frames as they were received, packets that were decrypted
before, or packets whose payload was written over.

`after_induction` is the only induction that facts about the context after a run
need: what one packet preserves, a run preserves. `Context.Reachable` contexts are the
ones that a run of a context made from a given master key can lead to. They all keep the
session keys of that master key (`Reachable.hasKeys`), and a limit for the disorder of
packets that can be used (`Reachable.maxDisorder_lt`).
-/

set_option autoImplicit false

namespace SecureRtp

namespace Context

/-- What comes of packets that are given to the context one after another. -/
def run (context : Context) : List Packet → List Decryption
  | [] => []
  | packet :: rest => context.decrypt packet :: (context.decrypt packet).context.run rest

/-- The context after the packets. -/
def after (context : Context) : List Packet → Context
  | [] => context
  | packet :: rest => (context.decrypt packet).context.after rest

/-- The context was made from `master`, with any settings, and was given any packets
since. -/
def Reachable (context : Context) (master : MasterKey) : Prop :=
  ∃ (builder : Builder) (fresh : Context) (packets : List Packet),
    (builder.build master.key.toList master.salt.toList).result = .ok fresh ∧
      context = fresh.after packets

/-- The keys of the context are the session keys of `master`. -/
structure HasKeys (context : Context) (master : MasterKey) : Prop where
  sessionSalt : context.sessionSalt = master.sessionSalt
  keyed : context.Keyed master.sessionKey

variable {context : Context} {packet : Packet}

/-! ### One packet more -/

/-- The context after two lists of packets is the one that the second list leads to from the end
of the first. -/
theorem after_append (context : Context) (before later : List Packet) :
    context.after (before ++ later) = (context.after before).after later := by
  induction before generalizing context with
  | nil => rfl
  | cons packet rest ih => exact ih _

/-- What comes of two lists of packets is what comes of the first, and then what the context at
its end makes of the second. -/
theorem run_append (context : Context) (before later : List Packet) :
    context.run (before ++ later) = context.run before ++ (context.after before).run later := by
  induction before generalizing context with
  | nil => rfl
  | cons packet rest ih => exact congrArg (_ :: ·) (ih _)

/-! ### Any number of packets -/

/-- What no packet undoes, no run undoes. -/
theorem after_induction {P : Context → Prop} (hstart : P context)
    (hstep : ∀ context packet, P context → P (context.decrypt packet).context)
    (packets : List Packet) : P (context.after packets) := by
  induction packets generalizing context with
  | nil => exact hstart
  | cons packet rest ih => exact ih (hstep context packet hstart)

/-- No packet changes the limit for the disorder of packets. -/
theorem maxDisorder_decrypt (context : Context) (packet : Packet) :
    (context.decrypt packet).context.rollover.maxDisorder = context.rollover.maxDisorder := by
  by_cases h : context.Accepts packet
  · rw [rollover_decrypt h, RolloverCounter.maxDisorder_update]
  · rw [context_decrypt_of_not_accepts h]

/-- No packet changes the session keys. The salt is only read, and the key stream begins anew
under the same key for each packet. -/
theorem HasKeys.decrypt {master : MasterKey} (h : context.HasKeys master) (packet : Packet) :
    (context.decrypt packet).context.HasKeys master where
  sessionSalt := (settings_decrypt context packet).2.trans h.sessionSalt
  keyed := keyed_decrypt h.keyed packet

/-- Every context that a run of one made from `master` can lead to has the session keys of
`master`. -/
theorem Reachable.hasKeys {master : MasterKey} (h : context.Reachable master) :
    context.HasKeys master := by
  obtain ⟨builder, fresh, packets, hbuild, rfl⟩ := h
  have hfresh := fresh_of_build hbuild
  exact after_induction (P := (HasKeys · master)) ⟨hfresh.sessionSalt, hfresh.keyed⟩
    (fun _ packet h => h.decrypt packet) packets

/-- Every context there is has a limit that can be used. -/
theorem Reachable.maxDisorder_lt {master : MasterKey} (h : context.Reachable master) :
    context.rollover.maxDisorder < 0x8000 := by
  obtain ⟨builder, fresh, packets, hbuild, rfl⟩ := h
  refine after_induction (P := (·.rollover.maxDisorder < 0x8000)) ?_ ?_ packets
  · rw [(fresh_of_build hbuild).rollover]
    exact maxDisorder_lt_of_build hbuild
  · intro context packet hlimit
    rwa [maxDisorder_decrypt]

/-- There is a context that has decrypted one packet, for all settings and any packet that
has room for a tag. -/
theorem exists_reachable_decrypt (builder : Builder) (hlimit : builder.maxDisorder < 0x8000)
    (master : MasterKey) (packet : Packet)
    (hroom : builder.profile.tagLength ≤ packet.payload.length) :
    ∃ context : Context, context.Reachable master ∧ context.profile = builder.profile ∧
      context.rollover = ⟨0, some packet.sequence, builder.maxDisorder⟩ ∧
      ∀ next : Packet, next.stream = packet.stream →
        builder.profile.tagLength ≤ next.payload.length → context.Accepts next := by
  obtain ⟨fresh, hbuild, hfresh⟩ := exists_build_fresh builder hlimit master
  have haccepts := hfresh.accepts hroom
  -- The context behind the given packet, which a new one decrypts.
  refine ⟨(fresh.decrypt packet).context, ⟨builder, fresh, [packet], hbuild, rfl⟩, ?_, ?_, ?_⟩
  · rw [(settings_decrypt fresh packet).1, hfresh.profile]
  · rw [rollover_decrypt haccepts, hfresh.rollover]
    rfl
  · intro next hstream hnext
    exact accepts_decrypt haccepts hstream (by rwa [hfresh.profile])

end Context

end SecureRtp
