import Arbor.Operator
import Arbor.Value.Marked

/-!
# Applying operators

Integers are 64-bit words, and arithmetic on them is exact or refused: a result
is computed over the integers and kept if a word holds it.  Division truncates
toward zero.  The remainder is refused whenever the quotient is, so the least
word has no remainder by minus one.

Operators are defined for two integers, two strings or two booleans, and
negation for a boolean.  Both operands are always there: `&&` and `||` do not
skip their right side.

* `word?_eq_some_iff` — a word holds an integer exactly when reading the word
  gives that integer;
* `word?_eq_none_iff` — refusal is being below the least word or above the greatest.
-/

namespace Arbor

/-- The 64-bit word that holds this integer, if one does. -/
def word? (n : Int) : Option Int64 :=
  if Int64.minValue.toInt ≤ n ∧ n ≤ Int64.maxValue.toInt then some (Int64.ofInt n) else none

theorem word?_eq_none_iff {n : Int} :
    word? n = none ↔ n < Int64.minValue.toInt ∨ Int64.maxValue.toInt < n := by
  simp only [word?, ite_eq_right_iff, reduceCtorEq, imp_false]
  omega

theorem word?_toInt (w : Int64) : word? w.toInt = some w := by
  have hlo := w.minValue_le_toInt
  have hhi := w.toInt_le
  rw [word?, if_pos ⟨hlo, hhi⟩, Int64.ofInt_toInt]

theorem word?_eq_some_iff {n : Int} {w : Int64} : word? n = some w ↔ w.toInt = n := by
  constructor
  · intro h
    by_cases hn : Int64.minValue.toInt ≤ n ∧ n ≤ Int64.maxValue.toInt
    · rw [word?, if_pos hn, Option.some.injEq] at h
      rw [← h, Int64.toInt_ofInt_of_le hn.1 (Int.lt_add_one_of_le hn.2)]
    · rw [word?, if_neg hn] at h
      cases h
  · intro heq
    subst heq
    exact word?_toInt w

/-- Why an operator has no result. -/
inductive OperatorError where
  /-- The operands are not two integers, two strings or two booleans. -/
  | operands (left right : Kind)
  /-- The operator is not defined for operands of this kind. -/
  | undefinedFor (op : Operator) (kind : Kind)
  /-- The operand of a negation is not a boolean. -/
  | negation (kind : Kind)
  | divisionByZero
  | moduloByZero
  /-- No word holds the result. -/
  | overflow (op : Operator)
  deriving DecidableEq

namespace OperatorError

/-- What an arithmetic operator is called in messages. -/
def operationName : Operator → String
  | .add => "addition"
  | .sub => "subtraction"
  | .mul => "multiplication"
  | .div => "division"
  | .mod => "remainder"
  | op => op.symbol

/-- The message. -/
def message : OperatorError → String
  | .operands left right => "Invalid types for operands: " ++ left.text ++ " and " ++ right.text
  | .undefinedFor op kind => "Invalid operation for " ++ kind.text ++ " operands: " ++ op.symbol
  | .negation kind =>
    "Cannot perform unary operation " ++ Operator.notSymbol ++ " on type " ++ kind.text
  | .divisionByZero => "division by zero"
  | .moduloByZero => "modulo by zero"
  | .overflow op => "integer overflow in " ++ operationName op

/-- Whether the operands had the right types and the arithmetic failed. -/
def isArithmetic : OperatorError → Bool
  | .divisionByZero | .moduloByZero | .overflow _ => true
  | _ => false

end OperatorError

namespace Operator

/-- The integer as a value, or the operator's overflow. -/
def exact (op : Operator) (n : Int) : Except OperatorError Value :=
  match word? n with
  | some w => .ok (.int w)
  | none => .error (.overflow op)

/-- Apply an operator to two integers. -/
def applyInt (op : Operator) (a b : Int64) : Except OperatorError Value :=
  match op with
  | .add => op.exact (a.toInt + b.toInt)
  | .sub => op.exact (a.toInt - b.toInt)
  | .mul => op.exact (a.toInt * b.toInt)
  | .div => if b.toInt = 0 then .error .divisionByZero else op.exact (a.toInt.tdiv b.toInt)
  | .mod =>
    if b.toInt = 0 then .error .moduloByZero
    else do
      let _ ← op.exact (a.toInt.tdiv b.toInt)
      op.exact (a.toInt.tmod b.toInt)
  | .eq => .ok (.bool (a == b))
  | .and | .or => .error (.undefinedFor op .int)

/-- Apply an operator to two strings. -/
def applyString (op : Operator) (a b : String) : Except OperatorError Value :=
  match op with
  | .add => .ok (.string (a ++ b))
  | .eq => .ok (.bool (a == b))
  | _ => .error (.undefinedFor op .string)

/-- Apply an operator to two booleans. -/
def applyBool (op : Operator) (a b : Bool) : Except OperatorError Value :=
  match op with
  | .eq => .ok (.bool (a == b))
  | .and => .ok (.bool (a && b))
  | .or => .ok (.bool (a || b))
  | _ => .error (.undefinedFor op .bool)

/-- Apply an operator to two values. -/
def apply (op : Operator) (left right : Value) : Except OperatorError Value :=
  match left, right with
  | .int a, .int b => op.applyInt a b
  | .string a, .string b => op.applyString a b
  | .bool a, .bool b => op.applyBool a b
  | left, right => .error (.operands left.kind right.kind)

/-- Negate a value. -/
def applyNot (operand : Value) : Except OperatorError Value :=
  match operand with
  | .bool b => .ok (.bool !b)
  | operand => .error (.negation operand.kind)

theorem exact_isScalar {op : Operator} {n : Int} {v : Value} (h : op.exact n = .ok v) :
    v.isScalar = true := by
  unfold exact at h
  split at h
  · cases h
    rfl
  · cases h

theorem applyInt_isScalar {op : Operator} {a b : Int64} {v : Value}
    (h : op.applyInt a b = .ok v) : v.isScalar = true := by
  cases op with
  | add => exact exact_isScalar h
  | sub => exact exact_isScalar h
  | mul => exact exact_isScalar h
  | div =>
    simp only [applyInt] at h
    split at h
    · cases h
    · exact exact_isScalar h
  | mod =>
    simp only [applyInt] at h
    split at h
    · cases h
    · cases hquot : Operator.mod.exact (a.toInt.tdiv b.toInt) with
      | error error => simp [hquot, bind, Except.bind] at h
      | ok quot =>
        simp only [hquot, bind, Except.bind] at h
        exact exact_isScalar h
  | eq =>
    cases h
    rfl
  | and => cases h
  | or => cases h

/-- Operators yield integers, strings and booleans. -/
theorem apply_isScalar {op : Operator} {left right v : Value} (h : op.apply left right = .ok v) :
    v.isScalar = true := by
  unfold apply at h
  split at h
  · exact applyInt_isScalar h
  · cases op <;> cases h <;> rfl
  · cases op <;> cases h <;> rfl
  · cases h

/-- Operators are applied to scalars only. -/
theorem operands_isScalar {op : Operator} {l r v : Value} (h : op.apply l r = .ok v) :
    l.isScalar = true ∧ r.isScalar = true := by
  unfold apply at h
  split at h <;> first | exact ⟨rfl, rfl⟩ | cases h

/-- Negation is defined for booleans only. -/
theorem applyNot_eq_ok {operand v : Value} (h : applyNot operand = .ok v) :
    ∃ b, operand = .bool b ∧ v = .bool !b := by
  unfold applyNot at h
  split at h
  · next b =>
    cases h
    exact ⟨b, rfl, rfl⟩
  · cases h

theorem applyNot_isScalar {operand v : Value} (h : applyNot operand = .ok v) :
    v.isScalar = true := by
  obtain ⟨b, -, rfl⟩ := applyNot_eq_ok h
  rfl

end Operator

end Arbor
