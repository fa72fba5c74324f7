import Mathlib.Algebra.Group.Nat.Defs
import SecureRtp.Octets.BigEndian

/-!
# `SecureRtp.Octets.BigEndian.Lemmas`: reading and writing numbers

The value of a string of octets and the digits of a number determine each
other, as far as the width allows.

* `value_append`: the first of two strings stands above the digits of the
  second.
* `value_xor`: the exclusive or of two strings of one length is that of
  their values.
* `value_encode`: writing `n` digits and reading them back keeps the
  number modulo `256 ^ n`.
* `encode_value`: reading `n` digits and writing `n` digits again gives
  the same octets, so different strings of one length have different
  values (`value_inj`).
* `Block.toWord_ofWord` and `Block.ofWord_toWord`: the same round trips
  for blocks, where no digit can be lost.
-/

set_option autoImplicit false

namespace SecureRtp

namespace BigEndian

/-! ### The value of a string -/

/-- Starting the fold from a number puts that number in front of the
digits. -/
private theorem foldl_digits (s : Octets) (acc : Nat) :
    s.foldl (fun acc b => 256 * acc + b.toNat) acc = acc * 256 ^ s.length + value s := by
  induction s generalizing acc with
  | nil => simp [value]
  | cons b s ih =>
      have hvalue : value (b :: s) = b.toNat * 256 ^ s.length + value s := by
        rw [value, List.foldl_cons, ih, Nat.mul_zero, Nat.zero_add]
      rw [List.foldl_cons, ih, hvalue, List.length_cons, pow_succ, Nat.add_mul, Nat.add_assoc,
        Nat.mul_comm 256 acc, Nat.mul_assoc, Nat.mul_comm 256]

/-- The first string of two stands above the digits of the second. -/
theorem value_append (s t : Octets) : value (s ++ t) = value s * 256 ^ t.length + value t := by
  rw [value, List.foldl_append, foldl_digits, ← value]

/-- A digit in front of `s` is worth itself times `256 ^ n`, where `n` is the number of digits
of `s`. -/
theorem value_cons (b : UInt8) (s : Octets) :
    value (b :: s) = b.toNat * 256 ^ s.length + value s := by
  have h := value_append [b] s
  rwa [value_singleton, List.singleton_append] at h

/-- A string of `n` digits is worth less than `256 ^ n`. -/
theorem value_lt (s : Octets) : value s < 256 ^ s.length := by
  induction s with
  | nil => simp
  | cons b s ih =>
      have hb : b.toNat + 1 ≤ 256 := b.toNat_lt
      have hle : (b.toNat + 1) * 256 ^ s.length ≤ 256 * 256 ^ s.length :=
        Nat.mul_le_mul_right _ hb
      rw [Nat.add_mul, Nat.one_mul] at hle
      rw [value_cons, List.length_cons, pow_succ, Nat.mul_comm (256 ^ s.length)]
      omega

/-- Numbers that are cut at the same bit are added without carry part by
part. -/
theorem add_xor_add {high high' low low' k : Nat} (hlow : low < 2 ^ k) (hlow' : low' < 2 ^ k) :
    (high * 2 ^ k + low) ^^^ (high' * 2 ^ k + low')
      = (high ^^^ high') * 2 ^ k + (low ^^^ low') := by
  have hdiv : ∀ {a b : Nat}, b < 2 ^ k → (a * 2 ^ k + b) / 2 ^ k = a := fun hb => by
    rw [Nat.mul_comm, Nat.mul_add_div (Nat.two_pow_pos k), Nat.div_eq_of_lt hb, Nat.add_zero]
  have hmod : ∀ {a b : Nat}, b < 2 ^ k → (a * 2 ^ k + b) % 2 ^ k = b := fun hb => by
    rw [Nat.mul_comm, Nat.mul_add_mod, Nat.mod_eq_of_lt hb]
  rw [← Nat.div_add_mod ((high * 2 ^ k + low) ^^^ (high' * 2 ^ k + low')) (2 ^ k),
    Nat.xor_div_two_pow, Nat.xor_mod_two_pow, hdiv hlow, hdiv hlow', hmod hlow, hmod hlow',
    Nat.mul_comm]

/-- Adding without carry puts a number below another one that leaves room
for it. -/
theorem mul_two_pow_xor {high low k : Nat} (hlow : low < 2 ^ k) :
    (high * 2 ^ k) ^^^ low = high * 2 ^ k + low := by
  simpa using @add_xor_add high 0 0 low k (Nat.two_pow_pos k) hlow

/-- Moving two numbers up by the same number of bits leaves each bit opposite to the one it had,
so it makes no difference whether they are added without carry before or after. -/
theorem xor_mul_two_pow (a b k : Nat) : (a ^^^ b) * 2 ^ k = (a * 2 ^ k) ^^^ (b * 2 ^ k) :=
  (add_xor_add (Nat.two_pow_pos k) (Nat.two_pow_pos k)).symm

/-- Digits of base 256 are groups of eight bits, so nothing is carried
from one to the next. -/
theorem value_xor {s t : Octets} (hlength : s.length = t.length) :
    value (Octets.xor s t) = value s ^^^ value t := by
  induction s generalizing t with
  | nil =>
      obtain rfl := List.length_eq_zero_iff.mp hlength.symm
      rfl
  | cons b s ih =>
      cases t with
      | nil => simp at hlength
      | cons c t =>
          have hrest : s.length = t.length := by simpa using hlength
          have hwidth : 256 ^ t.length = 2 ^ (8 * t.length) := by rw [Nat.pow_mul]
          have hs := value_lt s
          have ht := value_lt t
          rw [hrest, hwidth] at hs
          rw [hwidth] at ht
          show value ((b ^^^ c) :: Octets.xor s t) = _
          -- Both strings are cut behind their first digit, at the same bit.
          rw [value_cons, value_cons, value_cons, Octets.length_xor, hrest, Nat.min_self, hwidth,
            add_xor_add hs ht, ih hrest, UInt8.toNat_xor]

/-! ### Writing a number -/

/-- One digit more is the last digit put behind the digits of the
quotient. -/
theorem toList_encode_succ (n v : Nat) :
    (encode (n + 1) v).toList = (encode n (v / 256)).toList ++ [UInt8.ofNat v] := by
  apply List.ext_getElem
  · simp
  · intro i h₁ h₂
    rw [Vector.length_toList] at h₁
    rw [Vector.getElem_toList, getElem_encode]
    by_cases hi : i < n
    · -- A digit in front of the last one is a digit of the quotient, moved by one place.
      have hshift : 8 * (n + 1 - 1 - i) = 8 + 8 * (n - 1 - i) := by omega
      rw [List.getElem_append_left (by simpa using hi), Vector.getElem_toList, getElem_encode,
        hshift, Nat.shiftRight_add, Nat.shiftRight_eq_div_pow v 8]
    · have hlast : 8 * (n + 1 - 1 - i) = 0 := by omega
      rw [List.getElem_append_right (by simpa using hi), hlast, Nat.shiftRight_zero]
      simp

/-- Reading what was written gives the number back, less the digits
there was no room for. -/
theorem value_encode (n v : Nat) : value (encode n v).toList = v % 256 ^ n := by
  induction n generalizing v with
  | zero => rw [pow_zero, Nat.mod_one]; rfl
  | succ n ih =>
      have hlast : (UInt8.ofNat v).toNat = v % 256 := UInt8.toNat_ofNat'
      rw [toList_encode_succ, value_append, ih, value_singleton, List.length_singleton, hlast,
        pow_one, pow_succ 256 n, Nat.mul_comm (256 ^ n) 256, Nat.mod_mul]
      omega

/-- A number that has a width of its own is written to that width. -/
@[simp] theorem value_encode_uint16 (w : UInt16) : value (encode 2 w.toNat).toList = w.toNat := by
  rw [value_encode]
  exact Nat.mod_eq_of_lt w.toNat_lt

@[simp] theorem value_encode_uint32 (w : UInt32) : value (encode 4 w.toNat).toList = w.toNat := by
  rw [value_encode]
  exact Nat.mod_eq_of_lt w.toNat_lt

/-- Strings of one length and one value are equal. -/
theorem value_inj {s t : Octets} (hlen : s.length = t.length) (h : value s = value t) : s = t := by
  induction s generalizing t with
  | nil => exact (List.length_eq_zero_iff.mp hlen.symm).symm
  | cons b s ih =>
      cases t with
      | nil => simp at hlen
      | cons c t =>
          have hlen' : s.length = t.length := by simpa using hlen
          have hpos : 0 < 256 ^ t.length := Nat.pow_pos (by decide)
          have hs := value_lt s
          have ht := value_lt t
          rw [value_cons, value_cons, hlen'] at h
          rw [hlen'] at hs
          -- The quotient by the weight of the first digit is that digit, the remainder the rest.
          have hdiv := congrArg (· / 256 ^ t.length) h
          have hmod := congrArg (· % 256 ^ t.length) h
          simp only [Nat.mul_comm _ (256 ^ t.length), Nat.mul_add_div hpos,
            Nat.mul_add_mod, Nat.div_eq_of_lt hs, Nat.div_eq_of_lt ht, Nat.mod_eq_of_lt hs,
            Nat.mod_eq_of_lt ht, Nat.add_zero] at hdiv hmod
          rw [UInt8.toNat_inj.mp hdiv, ih hlen' hmod]

/-- Writing what was read gives the octets back. -/
theorem encode_value {n : Nat} (s : Vector UInt8 n) : encode n (value s.toList) = s := by
  have hlen : (encode n (value s.toList)).toList.length = s.toList.length := by simp
  have hlt := value_lt s.toList
  rw [Vector.length_toList] at hlt
  exact Vector.toList_inj.mp (value_inj hlen (by rw [value_encode, Nat.mod_eq_of_lt hlt]))

end BigEndian

/-! ### Blocks as words -/

namespace Block

/-- A block as a word has the value of its octets: sixteen digits of base 256 are 128 bits, so
nothing is cut off. -/
theorem toNat_toWord (b : Block) : b.toWord.toNat = BigEndian.value b.toList := by
  have hwidth : 256 ^ 16 = 2 ^ 128 := by decide
  have hlt := BigEndian.value_lt b.toList
  rw [Vector.length_toList, hwidth] at hlt
  rw [toWord, BitVec.toNat_ofNat]
  exact Nat.mod_eq_of_lt hlt

/-- A word that is written to a block and read back is the one it was. -/
@[simp] theorem toWord_ofWord (w : BitVec 128) : (ofWord w).toWord = w := by
  apply BitVec.eq_of_toNat_eq
  rw [toNat_toWord, ofWord, BigEndian.value_encode]
  exact Nat.mod_eq_of_lt w.isLt

/-- A block that is read as a word and written again is the one it was. -/
@[simp] theorem ofWord_toWord (b : Block) : ofWord b.toWord = b := by
  rw [ofWord, toNat_toWord, BigEndian.encode_value]

end Block

end SecureRtp
