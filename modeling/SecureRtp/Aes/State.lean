import SecureRtp.Aes.Field
import SecureRtp.Octets.Basic

/-!
# `SecureRtp.Aes.State`: the block cipher's square of octets

The cipher works on sixteen octets in four columns of four. A round
substitutes every octet, turns the rows against each other, mixes each
column, and adds a round key, which is a square of the same form.
-/

set_option autoImplicit false

namespace SecureRtp.Aes

/-- A column of four octets, from the top row to the bottom row. -/
structure Column where
  /-- The octet in the top row. -/
  b₀ : UInt8
  /-- The octet in the second row. -/
  b₁ : UInt8
  /-- The octet in the third row. -/
  b₂ : UInt8
  /-- The octet in the bottom row. -/
  b₃ : UInt8
deriving DecidableEq

namespace Column

/-- Applies a function to each octet. -/
def map (f : UInt8 → UInt8) (c : Column) : Column := ⟨f c.b₀, f c.b₁, f c.b₂, f c.b₃⟩

/-- The sum of two columns, row by row. -/
def add (c d : Column) : Column :=
  ⟨c.b₀ ^^^ d.b₀, c.b₁ ^^^ d.b₁, c.b₂ ^^^ d.b₂, c.b₃ ^^^ d.b₃⟩

/-- The column with its top octet moved to the bottom. -/
def rotateUp (c : Column) : Column := ⟨c.b₁, c.b₂, c.b₃, c.b₀⟩

/-- The column as a polynomial of degree three, times the fixed
polynomial `(x + 1) y ^ 3 + y ^ 2 + y + x`, modulo `y ^ 4 + 1`. -/
def mix (c : Column) : Column :=
  ⟨double c.b₀ ^^^ triple c.b₁ ^^^ c.b₂ ^^^ c.b₃,
   c.b₀ ^^^ double c.b₁ ^^^ triple c.b₂ ^^^ c.b₃,
   c.b₀ ^^^ c.b₁ ^^^ double c.b₂ ^^^ triple c.b₃,
   triple c.b₀ ^^^ c.b₁ ^^^ c.b₂ ^^^ double c.b₃⟩

end Column

/-- Four columns, from left to right. -/
structure State where
  /-- The leftmost column. -/
  c₀ : Column
  /-- The second column. -/
  c₁ : Column
  /-- The third column. -/
  c₂ : Column
  /-- The rightmost column. -/
  c₃ : Column
deriving DecidableEq

namespace State

/-- The octets of a block fill the square column by column. -/
def ofBlock (b : Block) : State :=
  ⟨⟨b[0], b[1], b[2], b[3]⟩, ⟨b[4], b[5], b[6], b[7]⟩,
   ⟨b[8], b[9], b[10], b[11]⟩, ⟨b[12], b[13], b[14], b[15]⟩⟩

/-- The octets of the square, column by column. -/
def toBlock (s : State) : Block :=
  #v[s.c₀.b₀, s.c₀.b₁, s.c₀.b₂, s.c₀.b₃, s.c₁.b₀, s.c₁.b₁, s.c₁.b₂, s.c₁.b₃,
     s.c₂.b₀, s.c₂.b₁, s.c₂.b₂, s.c₂.b₃, s.c₃.b₀, s.c₃.b₁, s.c₃.b₂, s.c₃.b₃]

@[simp] theorem ofBlock_toBlock (s : State) : ofBlock s.toBlock = s := rfl

/-- The sum of two squares. -/
def add (s t : State) : State :=
  ⟨s.c₀.add t.c₀, s.c₁.add t.c₁, s.c₂.add t.c₂, s.c₃.add t.c₃⟩

/-- Substitutes every octet. -/
def substitute (s : State) : State :=
  ⟨s.c₀.map Aes.substitute, s.c₁.map Aes.substitute, s.c₂.map Aes.substitute,
   s.c₃.map Aes.substitute⟩

/-- Turns each row to the left, by as many places as there are rows
above it. -/
def shiftRows (s : State) : State :=
  ⟨⟨s.c₀.b₀, s.c₁.b₁, s.c₂.b₂, s.c₃.b₃⟩, ⟨s.c₁.b₀, s.c₂.b₁, s.c₃.b₂, s.c₀.b₃⟩,
   ⟨s.c₂.b₀, s.c₃.b₁, s.c₀.b₂, s.c₁.b₃⟩, ⟨s.c₃.b₀, s.c₀.b₁, s.c₁.b₂, s.c₂.b₃⟩⟩

/-- Mixes each column. -/
def mixColumns (s : State) : State := ⟨s.c₀.mix, s.c₁.mix, s.c₂.mix, s.c₃.mix⟩

end State

end SecureRtp.Aes
