import SecureRtp.KeyStream
import SecureRtp.Octets.Align
import SecureRtp.Profile

/-!
# `SecureRtp.MasterKey`: from the master key to the session keys

Two parties agree on a master key and a master salt. What they encrypt
with are session keys, drawn from a key stream under the master key. The
stream starts from a block that is made of the master salt and a label
for the purpose, so that each purpose has a key of its own. The keys are
derived once and never renewed.

`ofOctets` is `new` of a `MasterKey`; `sessionKey` and `sessionSalt` are
`derive_session_key` and `derive_session_salt`. Both go through `derive`,
which includes the pseudo-random function `prf_aes_128_cm` here, and
`labelBlock` is the block that this function starts from. It is the
derivation of RFC 3711, section 4.3, with a key derivation rate of zero.
-/

set_option autoImplicit false

namespace SecureRtp

/-- A master key with its salt. -/
structure MasterKey where
  /-- The key. -/
  key : Key
  /-- The salt that goes with it. -/
  salt : Salt

namespace MasterKey

/-- A master key from octets of the lengths that the profile asks for.
The length of the key is looked at first. -/
def ofOctets (profile : Profile) (key salt : Octets) : Except SetupError MasterKey :=
  if keyFits : key.length = profile.masterKeyLength then
    if saltFits : salt.length = profile.masterSaltLength then
      .ok { key := key.toVector (by simpa using keyFits),
            salt := salt.toVector (by simpa using saltFits) }
    else .error (.masterSaltLength profile.masterSaltLength salt.length)
  else .error (.masterKeyLength profile.masterKeyLength key.length)

/-- The label of the key that packets are encrypted with. -/
def encryptionLabel : UInt8 := 0x00

/-- The label of the salt that goes into the counter blocks. -/
def saltLabel : UInt8 := 0x02

/-- The block from which the octets for a label are derived. The label is
added to the salt, as numbers of 128 bits without carry, 48 bits above
the lowest one, and the sum is moved up by the 16 bits that count the
blocks. -/
def labelBlock (master : MasterKey) (label : UInt8) : Block :=
  let saltWord := Block.toWord (Octets.alignRight 16 master.salt.toList)
  let labelWord := BitVec.ofNat 128 label.toNat
  Block.ofWord ((saltWord ^^^ (labelWord <<< 48)) <<< 16)

/-- The first sixteen octets of the key stream for a label. -/
def derive (master : MasterKey) (label : UInt8) : Block :=
  ((KeyStream.new master.key (master.labelBlock label)).take 16).1.toVector (by simp)

/-- The key that packets are encrypted with. -/
def sessionKey (master : MasterKey) : Key := master.derive encryptionLabel

/-- The salt that goes into the counter blocks of packets. -/
def sessionSalt (master : MasterKey) : Salt :=
  Octets.alignLeft 14 (master.derive saltLabel).toList

end MasterKey

end SecureRtp
