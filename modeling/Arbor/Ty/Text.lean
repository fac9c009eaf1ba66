import Arbor.Ty.Basic

/-!
# The written form of types

`[]T` for an array, `struct` with its fields in braces, each as name and type,
and `func(T, …) R` for a function.  Lengths, bodies and parameter names are not
written.
-/

namespace Arbor

namespace Ty

mutual

/-- The written form of a type. -/
def text : Ty → String
  | .int => "int"
  | .string => "string"
  | .bool => "bool"
  | .undefined => "undefined"
  | .unknown => "unknown"
  | .array elem _ => "[]" ++ elem.text
  | .record fields => "struct\x7b" ++ ", ".intercalate (fieldTexts fields) ++ "\x7d"
  | .function params result _ =>
    "func(" ++ ", ".intercalate (paramTexts params) ++ ") " ++ result.text
termination_by structural ty => ty

/-- Each field as its name and its type. -/
def fieldTexts : List (String × Ty) → List String
  | [] => []
  | (name, ty) :: rest => (name ++ " " ++ ty.text) :: fieldTexts rest
termination_by structural fields => fields

/-- The type of each parameter. -/
def paramTexts : List (String × Ty) → List String
  | [] => []
  | (_, ty) :: rest => ty.text :: paramTexts rest
termination_by structural params => params

end

theorem fieldTexts_eq_map (fields : Entries Ty) :
    fieldTexts fields = fields.map fun field => field.1 ++ " " ++ field.2.text := by
  induction fields with
  | nil => rfl
  | cons field rest ih => simp [fieldTexts, ih]

theorem paramTexts_eq_map (params : Entries Ty) :
    paramTexts params = params.map fun param => param.2.text := by
  induction params with
  | nil => rfl
  | cons param rest ih => simp [paramTexts, ih]

end Ty

end Arbor
