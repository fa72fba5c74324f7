import SecureRtp.Context.Builder
import SecureRtp.Proofs.Context.Accept

/-!
# `SecureRtp.Proofs.Context.Build`: a context before any packet

`Context.Fresh` describes a context that was just made: it has the profile and
the limit of its builder, belongs to no stream, has counted nothing, and has the
session key and the session salt of a master key.

`exists_build_fresh`: a key and a salt of the right lengths and a limit that
can be used are enough to make one. `fresh_of_build`: and nothing else is ever
made. `Fresh.accepts`: it accepts any packet that has room for a tag.

A builder cannot have a limit that is of no use, because it starts with one that is and
refuses the others (`Builder.Reachable`). For the builders there are, making a context is
checking the master key, and nothing else (`result_build`).
-/

set_option autoImplicit false

namespace SecureRtp

namespace Context

/-- A context of the builder under the session keys of `master`, before any
packet. -/
structure Fresh (context : Context) (builder : Builder) (master : MasterKey) : Prop where
  profile : context.profile = builder.profile
  stream : context.stream = none
  rollover : context.rollover = { value := 0, last := none, maxDisorder := builder.maxDisorder }
  sessionSalt : context.sessionSalt = master.sessionSalt
  keyed : context.Keyed master.sessionKey

/-- Octets of the right lengths are a master key. -/
theorem ofOctets_toList (profile : Profile) (master : MasterKey) :
    MasterKey.ofOctets profile master.key.toList master.salt.toList = .ok master := by
  simp [MasterKey.ofOctets]

namespace Builder

/-- The settings that a builder can have: the default ones, changed in any way that is not
refused. -/
inductive Reachable : Builder → Prop
  /-- The settings at the beginning. -/
  | start : Reachable default
  /-- Any profile can be chosen. -/
  | withProfile {builder : Builder} (hbuilder : Reachable builder) (profile : Profile) :
      Reachable (builder.withProfile profile)
  /-- A limit can be chosen if it is accepted. -/
  | withMaxDisorder {builder changed : Builder} {maxDisorder : UInt16}
      (hbuilder : Reachable builder)
      (hchanged : builder.withMaxDisorder maxDisorder = .ok changed) : Reachable changed

/-- The limit of a builder can be used, whatever was chosen on the way and however often. -/
theorem Reachable.maxDisorder_lt {builder : Builder} (h : builder.Reachable) :
    builder.maxDisorder < 0x8000 := by
  induction h with
  | start => decide
  | withProfile _ _ ih => exact ih
  | withMaxDisorder _ hchanged _ => exact maxDisorder_lt_of_withMaxDisorder hchanged

/-- The context that is made of the settings and a master key. A key stream has to start
somewhere, and starts at a block of zeros. -/
def fresh (builder : Builder) (master : MasterKey) : Context where
  profile := builder.profile
  stream := none
  rollover := { value := 0, last := none, maxDisorder := builder.maxDisorder }
  sessionSalt := master.sessionSalt
  keyStream := KeyStream.new master.sessionKey (Vector.replicate 16 0)

/-- A limit that can be used is all that a context needs besides a master key. -/
theorem context_eq {builder : Builder} (hlimit : builder.maxDisorder < 0x8000)
    (master : MasterKey) : builder.context master = .ok (builder.fresh master) := by
  have hrollover : RolloverCounter.new builder.maxDisorder
      = .ok { value := 0, last := none, maxDisorder := builder.maxDisorder } :=
    (RolloverCounter.new_eq_ok_iff _ _).mpr ⟨hlimit, rfl⟩
  rw [context, hrollover]
  rfl

/-- With a limit that can be used, only the master key can be wrong. -/
theorem result_build {builder : Builder} (hlimit : builder.maxDisorder < 0x8000)
    (key salt : Octets) :
    (builder.build key salt).result
      = (MasterKey.ofOctets builder.profile key salt).map builder.fresh := by
  rw [build]
  -- The session keys cannot fail, and neither can the counter with this limit.
  cases MasterKey.ofOctets builder.profile key salt with
  | error error => rfl
  | ok master =>
      have hcontext : (.ok master >>= builder.context) = .ok (builder.fresh master) :=
        context_eq hlimit master
      rw [hcontext]
      rfl

end Builder

/-- The context that is made of settings and a master key is `Fresh`: its key stream stands at the
beginning, under the session key. -/
theorem fresh_fresh (builder : Builder) (master : MasterKey) :
    (builder.fresh master).Fresh builder master where
  profile := rfl
  stream := rfl
  rollover := rfl
  sessionSalt := rfl
  keyed := ⟨Vector.replicate 16 0, 0, KeyStream.At.new _ _⟩

/-- A context can be made. -/
theorem exists_build_fresh (builder : Builder) (hlimit : builder.maxDisorder < 0x8000)
    (master : MasterKey) :
    ∃ context, (builder.build master.key.toList master.salt.toList).result = .ok context ∧
      context.Fresh builder master := by
  refine ⟨builder.fresh master, ?_, fresh_fresh builder master⟩
  rw [Builder.result_build hlimit, ofOctets_toList]
  rfl

/-- A context is made only with a limit that can be used. -/
theorem maxDisorder_lt_of_build {builder : Builder} {master : MasterKey} {context : Context}
    (h : (builder.build master.key.toList master.salt.toList).result = .ok context) :
    builder.maxDisorder < 0x8000 := by
  by_contra hlimit
  have hrefused : RolloverCounter.new builder.maxDisorder = .error .disorderTooLarge := by
    simp [RolloverCounter.new, RolloverCounter.checkDisorder, hlimit, bind, Except.bind]
  rw [Builder.build, ofOctets_toList] at h
  simp [bind, Except.bind, Builder.context, hrefused, Except.mapError] at h

/-- Whatever context is made, it is a fresh one. -/
theorem fresh_of_build {builder : Builder} {master : MasterKey} {context : Context}
    (h : (builder.build master.key.toList master.salt.toList).result = .ok context) :
    context.Fresh builder master := by
  obtain ⟨made, hmade, hfresh⟩ :=
    exists_build_fresh builder (maxDisorder_lt_of_build h) master
  rw [hmade] at h
  cases h
  exact hfresh

/-- A new context accepts the first packet that has room for a tag. -/
theorem Fresh.accepts {context : Context} {builder : Builder} {master : MasterKey}
    (h : context.Fresh builder master) {packet : Packet}
    (hroom : builder.profile.tagLength ≤ packet.payload.length) : context.Accepts packet := by
  refine ⟨?_, ?_⟩
  · simp [h.stream]
  · rwa [h.profile]

end Context

end SecureRtp
