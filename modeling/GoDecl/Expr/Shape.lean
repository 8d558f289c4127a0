/-! Kinds of expressions beyond names, literals and operators. -/
namespace GoDecl

/-- Shapes of expressions that are read and have no value. Of a `raw` one the tokens are kept as
they were written. -/
inductive Shape where
  | call | selector | index | slice | conversion | array | struct | tuple | reference | closure
  | assignment | block | ifElse | endless | whileLoop | braceCall | bracketCall
  | forLoop | arms | unsafeBlock | constBlock | tryBlock | plain | raw
  deriving DecidableEq, Repr

def Shape.label : Shape → String
  | .call => "call"
  | .selector => "selector"
  | .index => "index expression"
  | .slice => "slice expression"
  | .conversion => "conversion"
  | .array | .struct | .tuple => "composite literal"
  | .reference => "address-of"
  | .closure => "function literal"
  | .assignment => "assignment"
  | .block | .ifElse | .endless | .whileLoop => "statement"
  | .braceCall | .bracketCall => "macro"
  | .forLoop | .arms | .unsafeBlock | .constBlock | .tryBlock | .plain | .raw => "expression"

end GoDecl
