import GoDecl.Number.Single

/-! Decimal texts of single precision numbers. -/
namespace GoDecl

namespace Decimal

def digits (n : Nat) : List Char := Nat.toDigits 10 n

/-- Multiplying by 10⁴⁵ first brings even the smallest number to one or more. -/
def exponent (units : Nat) : Int :=
  (digits (units * Nat.pow 10 45 / Single.one)).length - 1 - 45

def scaled (units : Nat) (place : Int) : Nat × Nat :=
  if place < 0 then (units * Nat.pow 10 place.natAbs, Single.one)
  else (units, Single.one * Nat.pow 10 place.natAbs)

def sevenDigits (units : Nat) : Nat × Int :=
  if units = 0 then (0, 0)
  else
    let e := exponent units
    let (num, den) := scaled units (e - 6)
    let n := Single.roundDiv num den
    if n = Nat.pow 10 7 then (Nat.pow 10 6, e + 1) else (n, e)

def padded (width : Nat) (n : Nat) : List Char :=
  let text := digits n
  List.replicate (width - text.length) '0' ++ text

/-- One digit, a point, six digits, and an exponent with its sign and at least two digits. -/
def scientific (x : Single) : String :=
  if x.isNaN then "NaN"
  else if x.isInfinite then if x.isNegative then "-Inf" else "+Inf"
  else
    let (n, e) := sevenDigits x.units
    let sign := if x.isNegative then ['-'] else []
    .ofList (sign ++ digits (n / Nat.pow 10 6) ++ '.' :: padded 6 (n % Nat.pow 10 6) ++
      'e' :: (if e < 0 then '-' else '+') :: padded 2 e.natAbs)

/-- The ends of the interval count only when the last bit of the number is even. -/
def readsBack (magnitude num den : Nat) : Bool :=
  let low := Single.unitsOf (magnitude - 1) + Single.unitsOf magnitude
  let high := Single.unitsOf magnitude + Single.unitsOf (magnitude + 1)
  if magnitude % 2 = 0 then low * den ≤ 2 * num && 2 * num ≤ high * den
  else low * den < 2 * num && 2 * num < high * den

def gridPoint (n : Nat) (place : Int) : Nat × Nat :=
  if place < 0 then (n * Single.one, Nat.pow 10 place.natAbs)
  else (n * Single.one * Nat.pow 10 place.natAbs, 1)

/-- Of two neighbours on the grid that read back, the nearer, and the upper one on a tie. -/
def candidate? (magnitude count : Nat) : Option (Nat × Int) :=
  let units := Single.unitsOf magnitude
  let place := exponent units - (count - 1 : Nat)
  let (num, den) := scaled units place
  let below := num / den
  let hit (n : Nat) := let (a, b) := gridPoint n place; readsBack magnitude a b
  let upper := den ≤ 2 * (num % den)
  if hit below then
    if hit (below + 1) && upper then some (below + 1, place) else some (below, place)
  else if hit (below + 1) then some (below + 1, place)
  else none

def shortestFrom (magnitude : Nat) : (tries count : Nat) → Nat × Int
  | 0, _ => (0, 0)
  | tries + 1, count =>
    match candidate? magnitude count with
    | some found => found
    | none => shortestFrom magnitude tries (count + 1)

def shortest (magnitude : Nat) : Nat × Int := shortestFrom magnitude 9 1

def dropTrailingZeros (text : List Char) : List Char :=
  (text.reverse.dropWhile (· = '0')).reverse

/-- The shortest text that reads back, positional for exponents from -4 to 15. -/
def plain (x : Single) : String :=
  if x.isNaN then "NaN"
  else
    let sign := if x.isNegative then ['-'] else []
    let body :=
      if x.isInfinite then ['i', 'n', 'f']
      else if x.isZero then ['0', '.', '0']
      else
        let (n, place) := shortest x.magnitude
        let all := digits n
        let e : Int := place + (all.length - 1 : Nat)
        let text := dropTrailingZeros all
        if e < -4 || 16 ≤ e then
          let point := if text.length = 1 then [] else '.' :: text.drop 1
          let power := if e < 0 then '-' :: digits e.natAbs else digits e.natAbs
          text.take 1 ++ point ++ 'e' :: power
        else if e < 0 then
          '0' :: '.' :: List.replicate (e.natAbs - 1) '0' ++ text
        else
          let whole := text.take (e.natAbs + 1)
          let fraction := text.drop (e.natAbs + 1)
          whole ++ List.replicate (e.natAbs + 1 - whole.length) '0' ++
            '.' :: (if fraction.isEmpty then ['0'] else fraction)
    .ofList (sign ++ body)

def ofDigits (text : List Char) : Nat := text.foldl (fun n c => 10 * n + (c.toNat - '0'.toNat)) 0

/-- The nearest number to `n * 10 ^ place`. Below 10⁻⁴⁶ it is zero and from 10³⁹ on infinite, so
that no power of ten beyond these is formed. -/
def toSingle (n : Nat) (place : Int) : Single :=
  if n = 0 then Single.pack false 0
  else if 39 ≤ place then Single.infinity false
  else if place + (digits n).length < -45 then Single.pack false 0
  else let (num, den) := gridPoint n place; Single.ofUnits false num den

end Decimal

end GoDecl
