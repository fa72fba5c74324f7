import SecureRtp.Context.Basic
import SecureRtp.CounterBlock
import SecureRtp.Event
import SecureRtp.Packet

/-!
# `SecureRtp.Context.Decryption`: decrypting a packet

A packet is turned away if it belongs to another stream than the context
or if its payload has no room for the authentication tag; neither the
context nor the packet is changed then. A packet that is accepted moves
the rollover counter, loses its tag, and has the key stream of its place
in the stream put onto its payload. The tag is dropped without being
verified.

`Context.decrypt` is `decrypt` of a `CryptoContext`, and `succeeded` is what
`decrypt_packet` makes of its result. Both change the context and the packet
in place, so a `Decryption` has the two as they are afterwards.
-/

set_option autoImplicit false

namespace SecureRtp

/-- Why a context turns a packet away. -/
inductive Rejection
  /-- The packet belongs to the stream `actual`, the context to
  `expected`. -/
  | unexpectedStream (expected actual : UInt32)
  /-- The payload of `length` octets has no room for a tag. -/
  | shortPayload (length : Nat)
deriving DecidableEq

namespace Rejection

/-- The error that the caller gets. -/
def error : Rejection → DecryptError
  | unexpectedStream expected actual => .streamMismatch expected actual
  | shortPayload _ => .invalidInput

/-- The event that is logged. -/
def event : Rejection → Event
  | unexpectedStream expected actual => .unexpectedStream expected actual
  | shortPayload length => .shortPayload length

end Rejection

/-- What comes of decrypting a packet. -/
structure Decryption where
  /-- Whether the packet was decrypted, and if not, why. -/
  result : Except DecryptError Unit
  /-- The context afterwards. -/
  context : Context
  /-- The packet afterwards. -/
  packet : Packet
  /-- What was logged, the oldest event first. -/
  log : List Event

namespace Context

/-- The stream the context belongs to, if it is another one than
`stream`. -/
def otherStream? (context : Context) (stream : UInt32) : Option UInt32 :=
  context.stream.filter (· ≠ stream)

/-- Turns a packet away. Nothing changes but the log. -/
def reject (context : Context) (packet : Packet) (reason : Rejection) : Decryption :=
  { result := .error reason.error, context, packet, log := [reason.event] }

/-- The events of accepting a packet: the context takes the stream as its
own if it has none yet, and the rollover counter may change. -/
def acceptLog (context : Context) (packet : Packet) : List Event :=
  let binding := match context.stream with
    | none => [.bound packet.stream]
    | some _ => []
  let adjusting := match context.rollover.adjustment packet.sequence with
    | .keep => []
    | .increment | .decrement =>
      [.adjusted (context.rollover.update packet.sequence).value packet.sequence]
  binding ++ adjusting

/-- Decrypts a packet of the context's stream whose tag has been dropped
already. -/
def accept (context : Context) (packet : Packet) : Decryption :=
  let rollover := context.rollover.update packet.sequence
  let start := counterBlock packet.stream rollover.value packet.sequence context.sessionSalt
  let opened := (context.keyStream.reset start).xor packet.payload
  { result := .ok ()
    context := {
      context with
      stream := context.stream.or (some packet.stream)
      rollover
      keyStream := opened.2 }
    packet := Packet.rebuild { packet with payload := opened.1 }
    log := context.acceptLog packet }

/-- Decrypts a packet. The stream is looked at before the length of the
payload. -/
def decrypt (context : Context) (packet : Packet) : Decryption :=
  match context.otherStream? packet.stream with
  | some expected => context.reject packet (.unexpectedStream expected packet.stream)
  | none =>
    match packet.dropTail? context.profile.tagLength with
    | none => context.reject packet (.shortPayload packet.payload.length)
    | some stripped => context.accept stripped

end Context

/-- Whether the packet was decrypted. -/
def Decryption.succeeded (decryption : Decryption) : Bool :=
  match decryption.result with
  | .ok _ => true
  | .error _ => false

end SecureRtp
