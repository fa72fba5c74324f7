import SecureRtp.Octets.Align
import SecureRtp.Octets.BigEndian
import SecureRtp.PacketIndex

/-!
# `SecureRtp.CounterBlock`: where the key stream of a packet starts

Every packet is encrypted with a key stream of its own. The block that
the stream starts from is built from what tells the packets of a session
apart: the stream they belong to and their number in it. The session salt
covers both. The last two octets are left at zero, which is the room that
counter mode needs to count the blocks of one packet.

`counterBlock` is the function `generate_counter` of the interface, with
the words of RFC 3711, section 4.1.1: the stream is the SSRC, the rounds are
the ROC, and the number of the packet is the index `i`.
-/

set_option autoImplicit false

namespace SecureRtp

/-- The block from which the key stream of a packet starts. On numbers of
128 bits, the salt stands above the last 16 bits, the stream above the
last 64, the number of the packet above the last 16, and the three are
added without carry. -/
def counterBlock (stream rollovers : UInt32) (sequence : UInt16) (salt : Salt) : Block :=
  let saltWord := Block.toWord (Octets.alignRight 16 salt.toList)
  let streamWord := BitVec.ofNat 128 stream.toNat
  let indexWord := BitVec.ofNat 128 (packetIndex rollovers sequence).toNat
  Block.ofWord ((saltWord <<< 16) ^^^ (streamWord <<< 64) ^^^ (indexWord <<< 16))

end SecureRtp
