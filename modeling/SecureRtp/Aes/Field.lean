/-!
# `SecureRtp.Aes.Field`: the arithmetic of the block cipher

An octet stands for a polynomial of degree at most seven over the field
with two elements, and products are reduced by
`x ^ 8 + x ^ 4 + x ^ 3 + x + 1`. Addition is the exclusive or. The
substitution of the cipher takes the inverse of an octet in this field
and mixes the bits of the result; it is tabulated once.
-/

set_option autoImplicit false

namespace SecureRtp.Aes

/-- The product with `x`: one place to the left, reduced if a term of
degree eight arises. -/
def double (a : UInt8) : UInt8 := if a < 0x80 then a <<< 1 else (a <<< 1) ^^^ 0x1b

/-- The product with `x + 1`. -/
def triple (a : UInt8) : UInt8 := double a ^^^ a

/-- The product of two octets, by the rule of Horner over the bits of the
second, the highest bit first. -/
def mul (a b : UInt8) : UInt8 :=
  (List.range 8).foldr (fun i acc => double acc ^^^ (if b.toNat.testBit i then a else 0)) 0

/-- The inverse of an octet, and zero for zero. The field has 256
elements, so the inverse is the power with exponent 254, which is the
product of the second, fourth, eighth power and so on up to the one with
exponent 128. -/
def inverse (a : UInt8) : UInt8 :=
  let step := fun (square, product) _ =>
    let square := mul square square
    (square, mul product square)
  ((List.range 7).foldl step (a, 1)).2

/-- The bits of an octet turned to the left by `n` places, for `n`
below eight. -/
def rotate (a n : UInt8) : UInt8 := (a <<< n) ||| (a >>> (8 - n))

/-- The value that the substitution gives an octet. -/
def substituted (a : UInt8) : UInt8 :=
  let b := inverse a
  b ^^^ rotate b 1 ^^^ rotate b 2 ^^^ rotate b 3 ^^^ rotate b 4 ^^^ 0x63

/-- The substitution as a table. -/
def substitutionTable : Vector UInt8 256 :=
  Vector.ofFn fun i => substituted (UInt8.ofNat i)

/-- The substitution of one octet. -/
def substitute (a : UInt8) : UInt8 :=
  have inTable : a.toNat < 256 := a.toNat_lt
  substitutionTable[a.toNat]

/-- The table holds the values of the rule it was made from. -/
theorem substitute_eq (a : UInt8) : substitute a = substituted a := by
  simp [substitute, substitutionTable]

end SecureRtp.Aes
