/-!
# `SecureRtp.Octets.Basic`: octet strings

Frames, payloads and key streams are strings of octets of any length;
keys, salts and cipher blocks have a length of their own, which their
type carries. This module names both, and the exclusive or that puts a
key stream onto a payload.

* `length_xor` and `getElem_xor` say what the exclusive or is, octet by
  octet.
* `xor_xor_cancel`: a stream that is put on twice is taken off again,
  the reason why one operation serves to encrypt and to decrypt.
-/

set_option autoImplicit false

namespace SecureRtp

/-- A string of octets of any length. -/
abbrev Octets := List UInt8

/-- Sixteen octets, what the block cipher takes in and gives out. -/
abbrev Block := Vector UInt8 16

/-- A key of the 128-bit block cipher. -/
abbrev Key := Vector UInt8 16

/-- A salt of 112 bits. -/
abbrev Salt := Vector UInt8 14

namespace Octets

/-- The string of `n` zero octets. -/
def zeros (n : Nat) : Octets := List.replicate n 0

@[simp] theorem length_zeros (n : Nat) : (zeros n).length = n := by
  simp [zeros]

/-- A string of known length as a vector of that length. -/
def toVector {n : Nat} (s : Octets) (h : s.length = n) : Vector UInt8 n :=
  ⟨s.toArray, by simp [h]⟩

@[simp] theorem toList_toVector {n : Nat} (s : Octets) (h : s.length = n) :
    (s.toVector h).toList = s := rfl

@[simp] theorem toVector_toList {n : Nat} (v : Vector UInt8 n) (h : v.toList.length = n) :
    toVector v.toList h = v :=
  Vector.toList_inj.mp (toList_toVector v.toList h)

/-! ### Exclusive or -/

/-- The exclusive or of two strings, octet by octet. The longer one is
cut to the length of the shorter. -/
def xor (a b : Octets) : Octets := List.zipWith (· ^^^ ·) a b

@[simp] theorem length_xor (a b : Octets) : (xor a b).length = min a.length b.length := by
  simp [xor]

/-- The octet of an exclusive or at a place is that of the two octets at this place. -/
theorem getElem_xor (a b : Octets) (i : Nat) (ha : i < a.length) (hb : i < b.length)
    (h : i < (xor a b).length) : (xor a b)[i] = a[i] ^^^ b[i] := by
  simp [xor]

/-- The exclusive or does not depend on which of the two strings is put onto the other. -/
theorem xor_comm (a b : Octets) : xor a b = xor b a :=
  List.zipWith_comm_of_comm UInt8.xor_comm

/-- The exclusive or of strings that are split at the same place is
taken part by part. -/
theorem xor_append (a b c d : Octets) (h : a.length = b.length) :
    xor (a ++ c) (b ++ d) = xor a b ++ xor c d := by
  simp [xor, List.zipWith_append h]

/-- The beginning of an exclusive or is the one of the beginnings. -/
theorem take_xor (a b : Octets) (n : Nat) : (xor a b).take n = xor (a.take n) (b.take n) :=
  List.take_zipWith

/-- A stream that is at least as long as the data and is put on twice
gives the data back. -/
theorem xor_xor_cancel (a b : Octets) (h : a.length ≤ b.length) : xor (xor a b) b = a := by
  apply List.ext_getElem
  · simp only [length_xor]
    omega
  · intro i h₁ h₂
    have hab : i < (xor a b).length := by simp only [length_xor] at h₁ ⊢; omega
    rw [getElem_xor _ _ _ hab (by omega), getElem_xor _ _ _ h₂ (by omega), UInt8.xor_assoc,
      UInt8.xor_self, UInt8.xor_zero]

end Octets

end SecureRtp
