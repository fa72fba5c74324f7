import SecureRtp.Profile

/-!
# `SecureRtp.Event`: what is logged

Making a context and decrypting a packet leave a trail of events. Each
event carries the values it reports, has a level of importance, and is
written as one line.
-/

set_option autoImplicit false

namespace SecureRtp

/-- How important an event is. -/
inductive Level
  /-- Of interest when following the work step by step. -/
  | trace
  /-- Of interest when looking for a fault. -/
  | debug
  /-- Something is wrong with what came in. -/
  | warn
deriving DecidableEq

/-- The word for a level. -/
def Level.name : Level → String
  | trace => "TRACE"
  | debug => "DEBUG"
  | warn => "WARN"

/-- Something that is worth a line in the log. -/
inductive Event
  /-- A context was made for a profile. -/
  | created (profile : Profile)
  /-- A context took a stream as its own. -/
  | bound (stream : UInt32)
  /-- The rollover counter changed to `rollovers` with the packet
  `sequence`. -/
  | adjusted (rollovers : UInt32) (sequence : UInt16)
  /-- A packet of the stream `actual` came to the context of
  `expected`. -/
  | unexpectedStream (expected actual : UInt32)
  /-- A payload of `length` octets has no room for a tag. -/
  | shortPayload (length : Nat)
deriving DecidableEq

namespace Event

/-- Packets that are turned away are warnings, changes of the counter are
details. -/
def level : Event → Level
  | created _ | bound _ => .debug
  | adjusted _ _ => .trace
  | unexpectedStream _ _ | shortPayload _ => .warn

/-- The event in words, with its values. -/
def text : Event → String
  | created profile => s!"SRTP crypto context created profile={profile.name}"
  | bound stream => s!"crypto context bound to a stream ssrc={stream}"
  | adjusted rollovers sequence =>
    s!"rollover counter adjusted roc={rollovers} seq={sequence}"
  | unexpectedStream expected actual =>
    s!"packet from an unexpected stream expected={expected} actual={actual}"
  | shortPayload length => s!"payload shorter than authentication tag len={length}"

/-- The line in the log. -/
def line (event : Event) : String := event.level.name ++ " " ++ event.text

end Event

end SecureRtp
