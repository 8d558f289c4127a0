/-! Sets of code points, written as the sorted points where membership changes. -/
namespace GoDecl.Text

/-- The first bound opens a range, the next one closes it, and so on. A range holds its
opening point and not its closing one. -/
structure Ranges where
  bounds : List Nat

def insideBounds : List Nat → Nat → Bool
  | low :: high :: rest, n =>
    if n < low then false else if n < high then true else insideBounds rest n
  | _, _ => false

def Ranges.holds (r : Ranges) (c : Char) : Bool := insideBounds r.bounds c.toNat

end GoDecl.Text
