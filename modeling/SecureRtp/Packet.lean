import SecureRtp.Error
import SecureRtp.Octets.Reader

/-!
# `SecureRtp.Packet`: packets and their frames

A frame begins with a header of twelve octets, which a list of
contributing sources and a header extension may make longer; the rest is
the payload. Of the header only the stream and the sequence number are
needed. Padding is part of what is encrypted, so it stays in the payload.

A packet keeps the frame beside the payload. Changes to the payload do
not reach the frame until it is rebuilt from its own header and the
payload as it is then.

In the interface of the receiver this is `RtpPacket`, with `ssrc` for the
stream and `raw` for the frame. `decode` has the same name there.
`overwrite` is what the owner of a packet can do with the octets that
`payload_mut` gives access to. `dropTail?` and `rebuild` are the two steps
of decryption that change the form of a packet, `truncate_payload` and
`sync_raw`.
-/

set_option autoImplicit false

namespace SecureRtp

/-- A packet, encrypted or not: an `RtpPacket`. -/
structure Packet where
  /-- The stream it belongs to. -/
  stream : UInt32
  /-- The low 16 bits of its number in the stream. -/
  sequence : UInt16
  /-- Where the payload begins in the frame. -/
  payloadOffset : Nat
  /-- The payload. -/
  payload : Octets
  /-- The frame. -/
  frame : Octets
deriving DecidableEq

namespace Packet

/-- The part of the header that is kept: the stream and the sequence
number. -/
structure Header where
  /-- The stream the packet belongs to. -/
  stream : UInt32
  /-- The low 16 bits of its number in the stream. -/
  sequence : UInt16
deriving DecidableEq

/-! ### The first sixteen bits of a frame

From the top they hold two bits for the version, one for padding, one for
the extension, and four for the number of contributing sources. The rest
is of no use here. -/

/-- The version of the format. -/
def version (options : UInt16) : UInt16 := options >>> 14

/-- The number of contributing sources. -/
def sourceCount (options : UInt16) : Nat := ((options >>> 8) &&& 0xf).toNat

/-- Whether the header has an extension. -/
def hasExtension (options : UInt16) : Bool := options &&& 0x1000 ≠ 0

/-! ### Reading a frame -/

/-- Reads the header up to the payload. The version has to be 2. A source
takes four octets; an extension begins with two octets of its own and its
length in units of four octets. -/
def header : Reader Header := do
  let options ← Reader.uint16
  let sequence ← Reader.uint16
  Reader.skip 4
  let stream ← Reader.uint32
  Reader.require (version options = 2)
  Reader.skip (4 * sourceCount options)
  if hasExtension options then
    Reader.skip 2
    let units ← Reader.uint16
    Reader.skip (4 * units.toNat)
  return { stream, sequence }

/-- The packet in a frame. The fields are read with `header`, and the place
where the payload begins is known by what is left then. -/
def decode (frame : Octets) : Except InvalidInput Packet :=
  match header frame with
  | none => .error .invalidInput
  | some (header, payload) =>
    .ok { stream := header.stream, sequence := header.sequence,
          payloadOffset := frame.length - payload.length, payload, frame }

/-! ### Changing a packet -/

/-- Writes octets over the payload, beginning at `start`. What would go
beyond its end is dropped, so the payload keeps its length, as it does
when it is written through `payload_mut`. -/
def overwrite (packet : Packet) (start : Nat) (octets : Octets) : Packet :=
  let room := packet.payload.length - start
  { packet with
    payload := packet.payload.take start ++ octets.take room ++
      packet.payload.drop (start + octets.length) }

/-- The packet without the last `count` octets of its payload, if it has
so many. This is `truncate_payload`, and the check of the length that
decryption makes before it. -/
def dropTail? (packet : Packet) (count : Nat) : Option Packet :=
  if count ≤ packet.payload.length then
    some { packet with payload := packet.payload.take (packet.payload.length - count) }
  else none

/-- Brings the frame in line with the payload: its header followed by the
payload. This is `sync_raw`, which cuts the frame behind the header and
puts the payload there. -/
def rebuild (packet : Packet) : Packet :=
  { packet with frame := packet.frame.take packet.payloadOffset ++ packet.payload }

/-- Writing over a payload does not change its length. -/
@[simp] theorem length_payload_overwrite (packet : Packet) (start : Nat) (octets : Octets) :
    (packet.overwrite start octets).payload.length = packet.payload.length := by
  simp only [overwrite, List.length_append, List.length_take, List.length_drop]
  omega

/-- The tail can be dropped exactly when the payload is as long as the
tail. -/
theorem dropTail?_eq_none_iff (packet : Packet) (count : Nat) :
    packet.dropTail? count = none ↔ packet.payload.length < count := by
  simp [dropTail?]

/-- Nothing but the payload changes. -/
theorem dropTail?_eq_some_iff (packet stripped : Packet) (count : Nat) :
    packet.dropTail? count = some stripped ↔
      count ≤ packet.payload.length ∧
        stripped
          = { packet with payload := packet.payload.take (packet.payload.length - count) } := by
  simp [dropTail?, eq_comm]

end Packet

end SecureRtp
