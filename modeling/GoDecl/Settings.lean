/-! Choices that an evaluation depends on. -/
namespace GoDecl

structure Settings where
  maxDepth : Nat := 256
  /-- Whether names without initialisers get the zero value of their type. -/
  zeroValues : Bool := true
  deriving DecidableEq, Repr

inductive RuneStyle where
  | scalar | codePoint
  deriving DecidableEq, Repr

end GoDecl
