import SecureRtp.KeyStream
import SecureRtp.Profile
import SecureRtp.RolloverCounter

/-!
# `SecureRtp.Context.Basic`: the state of a receiver

A context decrypts the packets of one stream. It does not know the stream
beforehand and takes the first one that it accepts a packet from. From
then on it counts the rounds of that stream's sequence numbers.

The interface of a receiver consists of the functions that its users call
and of those that they are made of. Where a definition of this library
specifies one of these functions, the text of the definition or of its
module gives the name. A `Context` is a `CryptoContext`, with `ssrc` for the
stream and `rollover_counter` for the rounds.
-/

set_option autoImplicit false

namespace SecureRtp

/-- The state of a receiver of one stream. -/
structure Context where
  /-- The profile both ends agreed on. -/
  profile : Profile
  /-- The stream the context belongs to, once there is one. -/
  stream : Option UInt32
  /-- The rounds of the sequence number. -/
  rollover : RolloverCounter
  /-- The salt that goes into the counter blocks of packets. -/
  sessionSalt : Salt
  /-- The key stream under the session key, restarted for each
  packet. -/
  keyStream : KeyStream

end SecureRtp
