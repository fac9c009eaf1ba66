/-!
# Operators

The binary operators and their symbols.  The only unary operator is `!`.
-/

namespace Arbor

/-- A binary operator. -/
inductive Operator where
  | add | sub | mul | div | mod | and | or | eq
  deriving DecidableEq, Inhabited

namespace Operator

/-- The symbol an operator is written with. -/
def symbol : Operator → String
  | .add => "+"
  | .sub => "-"
  | .mul => "*"
  | .div => "/"
  | .mod => "%"
  | .and => "&&"
  | .or => "||"
  | .eq => "=="

/-- All binary operators. -/
def all : List Operator := [.add, .sub, .mul, .div, .mod, .and, .or, .eq]

/-- The operator written with this symbol. -/
def ofSymbol? (symbol : String) : Option Operator :=
  all.find? (·.symbol == symbol)

/-- Whether this is one of `+ - * / %`. -/
def isArithmetic : Operator → Bool
  | .add | .sub | .mul | .div | .mod => true
  | _ => false

/-- Whether this is `&&` or `||`. -/
def isLogical : Operator → Bool
  | .and | .or => true
  | _ => false

/-- The symbol of the one unary operator. -/
def notSymbol : String := "!"

end Operator

end Arbor
