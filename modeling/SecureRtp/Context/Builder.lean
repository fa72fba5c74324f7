import SecureRtp.Context.Basic
import SecureRtp.Event
import SecureRtp.MasterKey

/-!
# `SecureRtp.Context.Builder`: making a context

A builder collects the settings of a context. Settings that cannot be
used are refused when they are made, and the builder stays as it was. A
context is made from the settings, a master key and a master salt; a
builder makes as many as are asked for.

A `Builder` is a `CryptoContextBuilder`, and its settings are made with
`profile` (`withProfile`) and `max_rollover_disorder` (`withMaxDisorder`).
`build` has the same name there, and `Context.new` is `new` of a
`CryptoContext`.

`maxDisorder_lt_of_withMaxDisorder` is the reason why the limit for the
disorder of packets is no obstacle when the context is made.
-/

set_option autoImplicit false

namespace SecureRtp

namespace Context

/-- The settings of a context. -/
structure Builder where
  /-- The profile. -/
  profile : Profile
  /-- The limit for how far packets are out of order. -/
  maxDisorder : UInt16
deriving DecidableEq

namespace Builder

/-- The default settings. -/
instance : Inhabited Builder := ⟨⟨default, RolloverCounter.defaultMaxDisorder⟩⟩

/-- Settings with another profile. -/
def withProfile (builder : Builder) (profile : Profile) : Builder := { builder with profile }

/-- Settings with another limit for the disorder of packets. -/
def withMaxDisorder (builder : Builder) (maxDisorder : UInt16) :
    Except DisorderTooLarge Builder := do
  let maxDisorder ← RolloverCounter.checkDisorder maxDisorder
  return { builder with maxDisorder }

/-- What comes of making a context. -/
structure Outcome where
  /-- The context, or why there is none. -/
  result : Except SetupError Context
  /-- What was logged. -/
  log : List Event

/-- A context under the session keys of a master key, before any
packet. -/
def context (builder : Builder) (master : MasterKey) : Except SetupError Context := do
  let rollover ← (RolloverCounter.new builder.maxDisorder).mapError .disorder
  return {
    profile := builder.profile
    stream := none
    rollover
    sessionSalt := master.sessionSalt
    keyStream := KeyStream.new master.sessionKey (Vector.replicate 16 0) }

/-- Makes a context from a master key and a master salt. Only success is
logged. -/
def build (builder : Builder) (key salt : Octets) : Outcome :=
  match MasterKey.ofOctets builder.profile key salt >>= builder.context with
  | .ok context => { result := .ok context, log := [.created builder.profile] }
  | .error error => { result := .error error, log := [] }

/-- Settings that are accepted keep the limit below half of the sequence
numbers. -/
theorem maxDisorder_lt_of_withMaxDisorder {builder changed : Builder} {maxDisorder : UInt16}
    (h : builder.withMaxDisorder maxDisorder = .ok changed) : changed.maxDisorder < 0x8000 := by
  by_cases hlt : maxDisorder < 0x8000
  · simp only [withMaxDisorder, RolloverCounter.checkDisorder, hlt, if_true, bind, Except.bind,
      pure, Except.pure, Except.ok.injEq] at h
    subst h
    exact hlt
  · simp [withMaxDisorder, RolloverCounter.checkDisorder, hlt, bind, Except.bind] at h

end Builder

/-- A context with the default settings. -/
def new (key salt : Octets) : Builder.Outcome := (default : Builder).build key salt

end Context

end SecureRtp
