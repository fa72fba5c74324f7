import SecureRtp.Octets.Basic

/-!
# `SecureRtp.Octets.Align`: fitting a string into a fixed width

A string of any length can be laid into `n` octets in two ways. Aligned
to the left it keeps its first octets and is filled up with zeros
behind; aligned to the right it keeps its last octets and is filled up
with zeros in front, which keeps its value as a number when it fits.

The two are `slice_to_left_array` and `slice_to_right_array`; as programs that
copy from one array to another they are in
`SecureRtp.Proofs.Checked.Access`.

* `toList_alignLeft` and `toList_alignRight` say which octets the
  result holds.
* `alignLeft_toList` and `alignRight_toList`: a string that has the
  width already is not changed by either.
-/

set_option autoImplicit false

namespace SecureRtp

namespace Octets

/-- The first `n` octets of `s`, with zeros behind if there are
fewer. -/
def alignLeft (n : Nat) (s : Octets) : Vector UInt8 n :=
  toVector (s.take n ++ zeros (n - s.length)) (by simp; omega)

/-- The last `n` octets of `s`, with zeros in front if there are
fewer. -/
def alignRight (n : Nat) (s : Octets) : Vector UInt8 n :=
  toVector (zeros (n - s.length) ++ s.drop (s.length - n)) (by simp; omega)

/-- The octets of `alignLeft n s`: the first ones of `s`, as many as there is room for, and a zero
for each one that is missing. -/
theorem toList_alignLeft (n : Nat) (s : Octets) :
    (alignLeft n s).toList = s.take n ++ zeros (n - s.length) := rfl

/-- The octets of `alignRight n s`: a zero for each one that is missing, and the last ones of `s`,
as many as there is room for. -/
theorem toList_alignRight (n : Nat) (s : Octets) :
    (alignRight n s).toList = zeros (n - s.length) ++ s.drop (s.length - n) := rfl

/-- A string that has the width already is not changed on the left: nothing is cut off and nothing
is filled up. -/
@[simp] theorem alignLeft_toList {n : Nat} (v : Vector UInt8 n) : alignLeft n v.toList = v := by
  apply Vector.toList_inj.mp
  rw [toList_alignLeft, Vector.length_toList, Nat.sub_self, zeros, List.replicate_zero,
    List.append_nil, List.take_of_length_le (by simp)]

/-- A string that has the width already is not changed on the right. So octets of the right
number, such as a master key or a salt whose length was checked, are only copied. -/
@[simp] theorem alignRight_toList {n : Nat} (v : Vector UInt8 n) : alignRight n v.toList = v := by
  apply Vector.toList_inj.mp
  rw [toList_alignRight, Vector.length_toList, Nat.sub_self, zeros, List.replicate_zero,
    List.nil_append, List.drop_zero]

end Octets

end SecureRtp
