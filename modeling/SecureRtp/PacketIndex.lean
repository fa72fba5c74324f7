/-!
# `SecureRtp.PacketIndex`: the number of a packet in its stream

Packets carry the low 16 bits of their number only. The rollover counter
supplies 32 more, which gives every packet of a long stream a number of
its own.
-/

set_option autoImplicit false

namespace SecureRtp

/-- The 48-bit number of a packet: the rollover counter above the
sequence number. -/
def packetIndex (rollovers : UInt32) (sequence : UInt16) : UInt64 :=
  (rollovers.toUInt64 <<< 16) ||| sequence.toUInt64

/-- The number of a packet in units of packets. -/
theorem toNat_packetIndex (rollovers : UInt32) (sequence : UInt16) :
    (packetIndex rollovers sequence).toNat = rollovers.toNat * 65536 + sequence.toNat := by
  have hr := rollovers.toNat_lt
  have hs := sequence.toNat_lt
  have hshift : (rollovers.toUInt64 <<< 16).toNat = 2 ^ 16 * rollovers.toNat := by
    rw [UInt64.toNat_shiftLeft, UInt32.toNat_toUInt64, show (16 : UInt64).toNat % 64 = 16 from rfl,
      Nat.shiftLeft_eq, Nat.mod_eq_of_lt (by omega), Nat.mul_comm]
  rw [packetIndex, UInt64.toNat_or, hshift, UInt16.toNat_toUInt64,
    ← Nat.two_pow_add_eq_or_of_lt hs]
  omega

end SecureRtp
