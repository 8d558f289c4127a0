/-! Single precision numbers as bit patterns. Every finite magnitude is a whole number of
units of 2⁻¹⁴⁹, so the exact arithmetic below is arithmetic of natural numbers. -/
namespace GoDecl

structure Single where
  bits : UInt32
  deriving DecidableEq, Repr, Inhabited

namespace Single

def infiniteBits : Nat := 0x7f800000

def isNegative (x : Single) : Bool := 0x80000000 ≤ x.bits.toNat

def magnitude (x : Single) : Nat := x.bits.toNat % 0x80000000

def isNaN (x : Single) : Bool := infiniteBits < x.magnitude

def isInfinite (x : Single) : Bool := x.magnitude = infiniteBits

def isFinite (x : Single) : Bool := x.magnitude < infiniteBits

def isZero (x : Single) : Bool := x.magnitude = 0

def unitsOf (magnitude : Nat) : Nat :=
  let exponent := magnitude / 0x800000
  let fraction := magnitude % 0x800000
  if exponent = 0 then fraction else (0x800000 + fraction) * Nat.pow 2 (exponent - 1)

def units (x : Single) : Nat := unitsOf x.magnitude

def signedUnits (x : Single) : Int := if x.isNegative then -(x.units : Int) else x.units

def pack (negative : Bool) (magnitude : Nat) : Single :=
  ⟨.ofNat (if negative then 0x80000000 + magnitude else magnitude)⟩

def infinity (negative : Bool) : Single := pack negative infiniteBits

def nan : Single := ⟨0x7fc00000⟩

/-- The whole number nearest to a quotient; a tie goes to the even neighbour. -/
def roundDiv (num den : Nat) : Nat :=
  let quotient := num / den
  let twice := 2 * (num % den)
  if twice < den then quotient
  else if den < twice then quotient + 1
  else quotient + quotient % 2

/-- The magnitude bits nearest to `num / den` units. Twenty-four binary digits are kept, and a
carry out of them moves into the exponent field by itself. -/
def roundBits (num den : Nat) : Nat :=
  let shift := Nat.log2 (num / den) - 23
  min infiniteBits (shift * 0x800000 + roundDiv num (den * Nat.pow 2 shift))

def ofUnits (negative : Bool) (num den : Nat) : Single := pack negative (roundBits num den)

def one : Nat := Nat.pow 2 149

def ofInt (n : Int) : Single := ofUnits (n < 0) (n.natAbs * one) 1

def neg (x : Single) : Single := pack (!x.isNegative) x.magnitude

/-- An exact sum of zero is negative only if both terms are. -/
def add (x y : Single) : Single :=
  if x.isNaN || y.isNaN then nan
  else if x.isInfinite then
    if y.isInfinite && x.isNegative != y.isNegative then nan else x
  else if y.isInfinite then y
  else
    let sum := x.signedUnits + y.signedUnits
    let negative := if sum = 0 then x.isNegative && y.isNegative else sum < 0
    ofUnits negative sum.natAbs 1

def sub (x y : Single) : Single := add x y.neg

def mul (x y : Single) : Single :=
  let negative := x.isNegative != y.isNegative
  if x.isNaN || y.isNaN then nan
  else if x.isInfinite || y.isInfinite then
    if x.isZero || y.isZero then nan else infinity negative
  else ofUnits negative (x.units * y.units) one

def div (x y : Single) : Single :=
  let negative := x.isNegative != y.isNegative
  if x.isNaN || y.isNaN then nan
  else if x.isInfinite then
    if y.isInfinite then nan else infinity negative
  else if y.isInfinite then pack negative 0
  else if y.isZero then
    if x.isZero then nan else infinity negative
  else ofUnits negative (x.units * one) y.units

def orderKey (x : Single) : Int := if x.isNegative then -(x.magnitude : Int) else x.magnitude

def compare? (x y : Single) : Option Ordering :=
  if x.isNaN || y.isNaN then none else some (compare x.orderKey y.orderKey)

end Single

end GoDecl
