import GoDecl.Expr.Basic

/-! Top level declarations. `var` and `const` declare values; the others are kept as tokens. -/
namespace GoDecl

/-- A declared type: a bare name, or the tokens of anything longer. -/
inductive TypeExpr where
  | name (text : String)
  | composite (tokens : List Token)

structure ValueSpec where
  names : List String
  type : Option TypeExpr
  values : List Expr

inductive ValueKeyword where
  | var | const
  deriving DecidableEq, Repr

def ValueKeyword.text : ValueKeyword → String
  | .var => "var"
  | .const => "const"

inductive SkippedKind where
  | func | type | imports
  deriving DecidableEq, Repr

def SkippedKind.text : SkippedKind → String
  | .func => "func"
  | .type => "type"
  | .imports => "import"

inductive Declaration where
  | value (keyword : ValueKeyword) (specs : List ValueSpec)
  | skipped (kind : SkippedKind) (tokens : List Token)

end GoDecl
