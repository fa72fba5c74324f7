import Mathlib.Data.List.DropRight
import SecureRtp.Octets.BigEndian.Lemmas
import SecureRtp.Proofs.Checked.Access

/-!
# `SecureRtp.Proofs.Alignment`: fixed widths as arithmetic

A string is fitted into a width in one of two ways, and each of them is one cut through the
string and as many zeros as the width has octets. On the right the zeros stand in front and
the end is kept; on the left they stand behind and the beginning is kept. Whether the string
is too short or too long for the width makes no difference to that.

Read as numbers, to keep the beginning of a string is to divide by a power of 256, and to keep
its end is to take the remainder (`value_take`, `value_drop`). So aligning to the right is a
remainder, and aligning to the left is a shift that may go either way.

* `toList_alignRight_eq` and `toList_alignLeft_eq`: the cut.
* `toList_alignLeft_reverse`: each of the two is the other one in a mirror, so what is shown
  of one holds of both.
* `value_alignRight_eq_mod` and `value_alignLeft`: what becomes of the number.
* `alignment_exact` puts them together.
-/

set_option autoImplicit false

namespace SecureRtp

namespace Octets

/-! ### One cut -/

/-- The last octets of the string with zeros in front. -/
theorem toList_alignRight_eq (n : Nat) (s : Octets) :
    (alignRight n s).toList = (zeros n ++ s).rtake n := by
  -- To keep the last `n` of them is to drop as many as the string has.
  have hcut : (zeros n ++ s).length - n = s.length := by
    rw [List.length_append, length_zeros, Nat.add_sub_cancel_left]
  rw [List.rtake, hcut, List.drop_append, length_zeros, zeros, List.drop_replicate]
  exact toList_alignRight n s

/-- The first octets of the string with zeros behind. -/
theorem toList_alignLeft_eq (n : Nat) (s : Octets) :
    (alignLeft n s).toList = (s ++ zeros n).take n := by
  rw [List.take_append, zeros, List.take_replicate, Nat.min_eq_left (Nat.sub_le n s.length)]
  exact toList_alignLeft n s

/-! ### The mirror -/

@[simp] theorem reverse_zeros (n : Nat) : (zeros n).reverse = zeros n := List.reverse_replicate

/-- What is aligned to the left is aligned to the right in the mirror. -/
theorem toList_alignLeft_reverse (n : Nat) (s : Octets) :
    (alignLeft n s.reverse).toList = (alignRight n s).toList.reverse := by
  rw [toList_alignLeft_eq, toList_alignRight_eq, List.rtake_eq_reverse_take_reverse,
    List.reverse_reverse, List.reverse_append, reverse_zeros]

/-- What is aligned to the right is aligned to the left in the mirror. This is
`toList_alignLeft_reverse` for the string in the mirror, which is mirrored twice then. -/
theorem toList_alignRight_reverse (n : Nat) (s : Octets) :
    (alignRight n s.reverse).toList = (alignLeft n s).toList.reverse := by
  have hmirror := toList_alignLeft_reverse n s.reverse
  rw [List.reverse_reverse] at hmirror
  rw [hmirror, List.reverse_reverse]

/-! ### Two widths -/

/-- Zeros behind the width are of no account. -/
theorem take_append_zeros {m n : Nat} (hle : n ≤ m) (s : Octets) :
    (s ++ zeros m).take n = (s ++ zeros n).take n := by
  rw [List.take_append, List.take_append, zeros, zeros, List.take_replicate, List.take_replicate]
  congr 2
  omega

/-- Nothing is lost in a wider width. -/
theorem alignLeft_alignLeft {m n : Nat} (hle : n ≤ m) (s : Octets) :
    alignLeft n (alignLeft m s).toList = alignLeft n s := by
  apply Vector.toList_inj.mp
  -- The wider width has octets enough, so the zeros behind it are never reached.
  have hlength : n ≤ (alignLeft m s).toList.length := by rwa [Vector.length_toList]
  rw [toList_alignLeft_eq n (alignLeft m s).toList, List.take_append_of_le_length hlength,
    toList_alignLeft_eq m, List.take_take, Nat.min_eq_left hle, take_append_zeros hle,
    ← toList_alignLeft_eq]

/-- Nothing that the width `n` keeps is lost in a wider width `m` before, on the right as on the
left. -/
theorem alignRight_alignRight {m n : Nat} (hle : n ≤ m) (s : Octets) :
    alignRight n (alignRight m s).toList = alignRight n s := by
  apply Vector.toList_inj.mp
  apply List.reverse_injective
  -- In the mirror this is the same for the left.
  rw [← toList_alignLeft_reverse, ← toList_alignLeft_reverse, ← toList_alignLeft_reverse,
    alignLeft_alignLeft hle]

end Octets

namespace BigEndian

/-! ### Parts of a string -/

theorem value_zeros (n : Nat) : value (Octets.zeros n) = 0 := by
  induction n with
  | zero => rfl
  | succ n ih =>
      show value (0 :: Octets.zeros n) = 0
      rw [value_cons, ih, Nat.add_zero]
      exact Nat.zero_mul _

/-- A string that is cut in two. -/
theorem value_split (s : Octets) (n : Nat) :
    value s = value (s.take n) * 256 ^ (s.length - n) + value (s.drop n) := by
  rw [← List.length_drop, ← value_append, List.take_append_drop]

/-- What is behind the cut is worth less than one in the last place in front of it. -/
theorem value_drop_lt (s : Octets) (n : Nat) : value (s.drop n) < 256 ^ (s.length - n) := by
  rw [← List.length_drop]
  exact value_lt _

/-- The beginning of a string holds the high digits. -/
theorem value_take (s : Octets) (n : Nat) :
    value (s.take n) = value s / 256 ^ (s.length - n) := by
  rw [value_split s n, Nat.mul_comm, Nat.mul_add_div (Nat.pow_pos (by decide)),
    Nat.div_eq_of_lt (value_drop_lt s n), Nat.add_zero]

/-- The rest of it holds the low digits. -/
theorem value_drop (s : Octets) (n : Nat) :
    value (s.drop n) = value s % 256 ^ (s.length - n) := by
  rw [value_split s n, Nat.mul_comm, Nat.mul_add_mod, Nat.mod_eq_of_lt (value_drop_lt s n)]

/-! ### The number -/

/-- On the right the low digits are kept, as many as there is room for. -/
theorem value_alignRight_eq_mod (n : Nat) (s : Octets) :
    value (Octets.alignRight n s).toList = value s % 256 ^ n := by
  have hvalue : value (Octets.zeros n ++ s) = value s := by
    rw [value_append, value_zeros, Nat.zero_mul, Nat.zero_add]
  have hkept : (Octets.zeros n ++ s).length - ((Octets.zeros n ++ s).length - n) = n := by
    rw [List.length_append, Octets.length_zeros]
    omega
  rw [Octets.toList_alignRight_eq, List.rtake, value_drop, hvalue, hkept]

/-- On the left the number is moved to the top of the width. -/
theorem value_alignLeft (n : Nat) (s : Octets) :
    value (Octets.alignLeft n s).toList = value s * 256 ^ n / 256 ^ s.length := by
  have hvalue : value (s ++ Octets.zeros n) = value s * 256 ^ n := by
    rw [value_append, value_zeros, Octets.length_zeros, Nat.add_zero]
  have hlost : (s ++ Octets.zeros n).length - n = s.length := by
    rw [List.length_append, Octets.length_zeros, Nat.add_sub_cancel]
  rw [Octets.toList_alignLeft_eq, value_take, hvalue, hlost]

/-- A string that is filled up with zeros in front keeps its value. -/
theorem value_alignRight {n : Nat} (s : Octets) (hfits : s.length ≤ n) :
    value (Octets.alignRight n s).toList = value s := by
  have hlt : value s < 256 ^ n :=
    Nat.lt_of_lt_of_le (value_lt s) (Nat.pow_le_pow_right (by decide) hfits)
  rw [value_alignRight_eq_mod, Nat.mod_eq_of_lt hlt]

end BigEndian

namespace Octets

/-- Fitting a string into a width, of any length and any width. On the right the last octets
are kept of the string with zeros in front, on the left the first octets of the string with
zeros behind. As numbers the one is a remainder, the other a quotient. Each is the other in a
mirror, and a string that was fitted into a wider width before is fitted in the same way. The
programs that copy part of the string to part of an array of zeros come to the same. -/
theorem alignment_exact (n : Nat) (s : Octets) :
    (Checked.alignRight n s = .ok (alignRight n s) ∧
      (alignRight n s).toList = (zeros n ++ s).rtake n ∧
      BigEndian.value (alignRight n s).toList = BigEndian.value s % 256 ^ n ∧
      (alignRight n s.reverse).toList = (alignLeft n s).toList.reverse ∧
      ∀ m, n ≤ m → alignRight n (alignRight m s).toList = alignRight n s) ∧
    (Checked.alignLeft n s = .ok (alignLeft n s) ∧
      (alignLeft n s).toList = (s ++ zeros n).take n ∧
      BigEndian.value (alignLeft n s).toList
        = BigEndian.value s * 256 ^ n / 256 ^ s.length ∧
      (alignLeft n s.reverse).toList = (alignRight n s).toList.reverse ∧
      ∀ m, n ≤ m → alignLeft n (alignLeft m s).toList = alignLeft n s) := by
  refine ⟨⟨Checked.alignRight_eq n s, toList_alignRight_eq n s,
    BigEndian.value_alignRight_eq_mod n s, toList_alignRight_reverse n s, ?_⟩,
    ⟨Checked.alignLeft_eq n s, toList_alignLeft_eq n s, BigEndian.value_alignLeft n s,
    toList_alignLeft_reverse n s, ?_⟩⟩
  · intro m hle
    exact alignRight_alignRight hle s
  · intro m hle
    exact alignLeft_alignLeft hle s

/-- Three octets, first in a width of eight, which is too wide for them, and then in one of
two, which is too narrow. -/
theorem alignment_exact_wide_then_narrow :
    2 ≤ 8 ∧
      (alignRight 2 (alignRight 8 [1, 2, 3]).toList).toList = [2, 3] ∧
      (alignLeft 2 (alignLeft 8 [1, 2, 3]).toList).toList = [1, 2] ∧
      BigEndian.value (alignRight 2 [1, 2, 3]).toList = 0x010203 % 0x10000 ∧
      BigEndian.value (alignLeft 2 [1, 2, 3]).toList = 0x010203 * 0x10000 / 0x1000000 := by
  obtain ⟨⟨-, hright, hlow, -, hnarrow⟩, -, hleft, hhigh, -, hnarrow'⟩ :=
    alignment_exact 2 [1, 2, 3]
  refine ⟨by decide, ?_, ?_, hlow, hhigh⟩
  · rw [hnarrow 8 (by decide), hright]
    rfl
  · rw [hnarrow' 8 (by decide), hleft]
    rfl

end Octets

end SecureRtp
