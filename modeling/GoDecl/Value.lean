import GoDecl.Number.Decimal
import GoDecl.Text.Quoted

/-! Values of initialisers: five kinds, equality within a kind, and the order within a kind. -/
namespace GoDecl

inductive Kind where
  | int | float | string | rune | bool
  deriving DecidableEq, Repr

def Kind.name : Kind → String
  | .int => "int"
  | .float => "float32"
  | .string => "string"
  | .rune => "rune"
  | .bool => "bool"

inductive Value where
  | int (n : Int64)
  | float (x : Single)
  | string (s : String)
  | rune (c : Char)
  | bool (b : Bool)
  deriving DecidableEq, Repr

/-- What a declared name got: a value, or nothing. -/
abbrev Slot := Option Value

namespace Value

def kind : Value → Kind
  | .int _ => .int
  | .float _ => .float
  | .string _ => .string
  | .rune _ => .rune
  | .bool _ => .bool

/-- Values of different kinds are never ordered, and neither is a NaN with anything. -/
def compare? : Value → Value → Option Ordering
  | .int a, .int b => some (compare a.toInt b.toInt)
  | .float a, .float b => a.compare? b
  | .string a, .string b => some (compareOfLessAndEq a b)
  | .rune a, .rune b => some (compare a.toNat b.toNat)
  | .bool a, .bool b => some (compare a.toNat b.toNat)
  | _, _ => none

/-- Same kind and same value. The two zeros are equal and a NaN equals nothing, itself included,
so this is not identity. -/
def equals : Value → Value → Bool
  | .int a, .int b => a = b
  | .float a, .float b => a.compare? b = some .eq
  | .string a, .string b => a = b
  | .rune a, .rune b => a = b
  | .bool a, .bool b => a = b
  | _, _ => false

def int? : Value → Option Int64
  | .int n => some n
  | _ => none

def float? : Value → Option Single
  | .float x => some x
  | _ => none

def string? : Value → Option String
  | .string s => some s
  | _ => none

def rune? : Value → Option Char
  | .rune c => some c
  | _ => none

def bool? : Value → Option Bool
  | .bool b => some b
  | _ => none

def intText (n : Int) : String :=
  .ofList (if n < 0 then '-' :: Decimal.digits n.natAbs else Decimal.digits n.natAbs)

def boolText (b : Bool) : String := if b then "true" else "false"

def text : Value → String
  | .int n => intText n.toInt
  | .float x => Decimal.scientific x
  | .string s => s
  | .rune c => .singleton c
  | .bool b => boolText b

/-- The text that tells kinds apart and shows every character. -/
def inspect : Value → String
  | .int n => "Integer(" ++ intText n.toInt ++ ")"
  | .float x => "Float(" ++ Decimal.plain x ++ ")"
  | .string s => "String(" ++ Text.quotedString s ++ ")"
  | .rune c => "Char(" ++ Text.quotedChar c ++ ")"
  | .bool b => "Bool(" ++ boolText b ++ ")"

/-- The value of a declared name that has a type and no initialiser. -/
def zero? (typeName : String) : Option Value :=
  match typeName with
  | "int" => some (.int 0)
  | "string" => some (.string "")
  | "byte" | "rune" => some (.rune '0')
  | "float32" => some (.float (.pack false 0))
  | _ => none

end Value

end GoDecl
