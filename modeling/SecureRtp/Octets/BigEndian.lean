import SecureRtp.Octets.Basic

/-!
# `SecureRtp.Octets.BigEndian`: octets as numbers

On the wire a number is written in base 256 with its most significant
digit first. `value` reads a string of octets as such a number and
`encode` writes the low digits of a number. The block cipher counts on
whole blocks, so a block is also a word of 128 bits, on which addition
wraps around.

That reading and writing undo each other is shown in
`SecureRtp.Octets.BigEndian.Lemmas`.
-/

set_option autoImplicit false

namespace SecureRtp

namespace BigEndian

/-- The number whose base-256 digits are the given octets, the most
significant first. -/
def value (s : Octets) : Nat := s.foldl (fun acc b => 256 * acc + b.toNat) 0

/-- The `n` low base-256 digits of `v`, the most significant first. -/
def encode (n v : Nat) : Vector UInt8 n :=
  Vector.ofFn fun i => UInt8.ofNat (v >>> (8 * (n - 1 - i)))

@[simp] theorem value_nil : value [] = 0 := rfl

@[simp] theorem value_singleton (b : UInt8) : value [b] = b.toNat := by simp [value]

/-- The digit at the place `i` from the front is the number without the digits behind that place,
reduced to one octet. -/
@[simp] theorem getElem_encode (n v i : Nat) (h : i < n) :
    (encode n v)[i] = UInt8.ofNat (v >>> (8 * (n - 1 - i))) := by
  simp [encode]

end BigEndian

namespace Block

/-- The block as a number of 128 bits. -/
def toWord (b : Block) : BitVec 128 := BitVec.ofNat 128 (BigEndian.value b.toList)

/-- The block that holds a number of 128 bits. -/
def ofWord (w : BitVec 128) : Block := BigEndian.encode 16 w.toNat

end Block

end SecureRtp
