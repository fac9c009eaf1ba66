import Arbor.Operator
import Arbor.Ty.Agreement

/-!
# Nodes

One node is one construct of a program: a literal, a statement or an
expression.  Children are named by number, lists of children by a span into the
program's shared storage, so a node is a small flat record.

Two nodes have the same content when they are the same construct with the same
numbers, names and spans, and with types that agree (`Node.sameContent`).
-/

namespace Arbor

/-- One explicitly given field of a record literal. -/
structure FieldInit where
  name : String
  value : NodeId
  deriving DecidableEq, Inhabited

/-- One construct of a program. -/
inductive Node where
  /-- An integer literal. -/
  | int (value : Int64)
  /-- A string literal. -/
  | string (value : String)
  /-- A boolean literal. -/
  | bool (value : Bool)
  /-- The literal that yields undefined. -/
  | nil
  /-- An array literal with all its elements, or with none to ask for defaults. -/
  | arrayLiteral (elem : Ty) (length : NodeId) (elements : Span NodeId)
  /-- A record literal; fields without an initializer take their default. -/
  | recordLiteral (fields : Entries Ty) (inits : Span FieldInit)
  /-- Statements run in order until one of them returns. -/
  | block (body : Span NodeId)
  /-- Return a value from the enclosing function. -/
  | ret (value : NodeId)
  /-- Choose a branch, after an optional first statement. -/
  | cond (init : Option NodeId) (test thenBranch : NodeId) (elseBranch : Option NodeId)
  /-- Store a value; a declaration always binds locally. -/
  | assign (target value : NodeId) (declares : Bool)
  /-- Apply a binary operator. -/
  | binary (op : Operator) (left right : NodeId)
  /-- Negate a boolean. -/
  | not (operand : NodeId)
  /-- Refer to a variable, whose resolved type is attached. -/
  | var (name : String) (ty : Ty)
  /-- Read an element of an array. -/
  | subscript (base index : NodeId)
  /-- Read a field of a record. -/
  | select (base : NodeId) (field : String)
  /-- Call a function. -/
  | call (callee : NodeId) (args : Span NodeId)
  deriving Inhabited

namespace Node

/-- How messages name a construct. -/
def describe : Node → String
  | .int .. => "integer literal"
  | .string .. => "string literal"
  | .bool .. => "bool literal"
  | .nil => "nil literal"
  | .arrayLiteral .. => "array literal"
  | .recordLiteral .. => "struct literal"
  | .block .. => "statement list"
  | .ret .. => "return statement"
  | .cond .. => "if statement"
  | .assign .. => "assignment"
  | .binary .. => "binary operation"
  | .not .. => "unary operation"
  | .var .. => "variable reference"
  | .subscript .. => "subscript"
  | .select .. => "named selector"
  | .call .. => "function call"

/-- Whether two nodes are the same construct over the same children, with agreeing types. -/
def sameContent : Node → Node → Bool
  | .int n, .int n' => n == n'
  | .string s, .string s' => s == s'
  | .bool b, .bool b' => b == b'
  | .nil, .nil => true
  | .arrayLiteral elem _ elements, .arrayLiteral elem' _ elements' =>
    elem.agrees elem' && elements == elements'
  | .recordLiteral fields inits, .recordLiteral fields' inits' =>
    (Ty.record fields).agrees (.record fields') && inits == inits'
  | .block body, .block body' => body == body'
  | .ret value, .ret value' => value == value'
  | .cond init test yes no, .cond init' test' yes' no' =>
    init == init' && test == test' && yes == yes' && no == no'
  | .assign target value declares, .assign target' value' declares' =>
    target == target' && value == value' && declares == declares'
  | .binary op left right, .binary op' left' right' =>
    op == op' && left == left' && right == right'
  | .not operand, .not operand' => operand == operand'
  | .var name ty, .var name' ty' => name == name' && ty.agrees ty'
  | .subscript base index, .subscript base' index' => base == base' && index == index'
  | .select base field, .select base' field' => base == base' && field == field'
  | .call callee args, .call callee' args' => callee == callee' && args == args'
  | _, _ => false

end Node

end Arbor
