import Arbor.Ty.Basic

/-!
# Agreement of types

Two types agree when values of one may stand where the other is asked for.

* Arrays agree when their elements do; the node that computes the length takes
  no part.
* Records agree when every field listed on either side is found on the other
  side under its name with an agreeing type.  Order is irrelevant, and of two
  fields with one name the first is the one that is found.
* Functions agree when their parameters do, position by position, and their
  results do; parameter names and the body take no part.

Agreement is not reflexive on a record that lists one name with two types that
do not agree.

* `Ty.agrees_record_iff`, `Ty.agrees_function_iff` — the two rules above, as
  statements about lists of fields;
* `Ty.agrees_symm`, `Ty.agrees_trans` — agreement is symmetric and transitive.
-/

namespace Arbor

namespace Ty

mutual

/-- Whether two types agree. -/
def agrees : Ty → Ty → Bool
  | .int, .int => true
  | .string, .string => true
  | .bool, .bool => true
  | .undefined, .undefined => true
  | .unknown, .unknown => true
  | .array elem _, .array elem' _ => elem.agrees elem'
  | .record fields, .record fields' =>
    eachFound fields fields' && fields'.all fun field => foundIn fields field.1 field.2
  | .function params result _, .function params' result' _ =>
    pairwiseAgree params params' && result.agrees result'
  | _, _ => false
termination_by structural ty => ty

/-- Whether each listed field is found in `others` with an agreeing type. -/
def eachFound : List (String × Ty) → Entries Ty → Bool
  | [], _ => true
  | (name, ty) :: rest, others =>
    (others.get? name).any (fun other => ty.agrees other) && eachFound rest others
termination_by structural fields => fields

/-- Whether the first field called `name` has a type that agrees with `other`. -/
def foundIn : List (String × Ty) → String → Ty → Bool
  | [], _, _ => false
  | (key, ty) :: rest, name, other =>
    if key = name then ty.agrees other else foundIn rest name other
termination_by structural fields => fields

/-- Whether two lists are equally long and agree position by position. -/
def pairwiseAgree : List (String × Ty) → List (String × Ty) → Bool
  | [], [] => true
  | (_, ty) :: rest, (_, ty') :: rest' => ty.agrees ty' && pairwiseAgree rest rest'
  | _, _ => false
termination_by structural params => params

end

theorem eachFound_iff {fields others : Entries Ty} :
    eachFound fields others = true ↔
      ∀ field ∈ fields, ∃ other, others.get? field.1 = some other ∧
        field.2.agrees other = true := by
  induction fields with
  | nil => simp [eachFound]
  | cons field rest ih =>
    obtain ⟨name, ty⟩ := field
    simp [eachFound, ih, Option.any_eq_true]

theorem foundIn_iff {fields : Entries Ty} {name : String} {other : Ty} :
    foundIn fields name other = true ↔
      ∃ ty, fields.get? name = some ty ∧ ty.agrees other = true := by
  induction fields with
  | nil => simp [foundIn]
  | cons field rest ih =>
    obtain ⟨key, ty⟩ := field
    by_cases h : key = name <;> simp [foundIn, Entries.get?, h, ih]

theorem pairwiseAgree_iff {params others : Entries Ty} :
    pairwiseAgree params others = true ↔
      params.length = others.length ∧
        ∀ pair ∈ params.zip others, pair.1.2.agrees pair.2.2 = true := by
  induction params generalizing others with
  | nil => cases others <;> simp [pairwiseAgree]
  | cons param rest ih =>
    obtain ⟨name, ty⟩ := param
    cases others with
    | nil => simp [pairwiseAgree]
    | cons other rest' =>
      obtain ⟨name', ty'⟩ := other
      simp only [pairwiseAgree, Bool.and_eq_true, ih, List.length_cons, List.zip_cons_cons,
        List.forall_mem_cons, Nat.add_right_cancel_iff]
      exact and_left_comm

theorem pairwiseAgree_symm {params others : Entries Ty}
    (symm : ∀ param ∈ params, ∀ {other : Ty}, param.2.agrees other = true →
      other.agrees param.2 = true)
    (h : pairwiseAgree params others = true) : pairwiseAgree others params = true := by
  induction params generalizing others with
  | nil => cases others <;> simp_all [pairwiseAgree]
  | cons param rest ih =>
    obtain ⟨name, ty⟩ := param
    obtain ⟨hhead, hrest⟩ := List.forall_mem_cons.mp symm
    cases others with
    | nil => simp [pairwiseAgree] at h
    | cons other rest' =>
      obtain ⟨name', ty'⟩ := other
      simp only [pairwiseAgree, Bool.and_eq_true] at h ⊢
      exact ⟨hhead h.1, ih hrest h.2⟩

/-- Records agree when each side's fields are found, agreeing, on the other. -/
theorem agrees_record_iff {fields fields' : Entries Ty} :
    (Ty.record fields).agrees (.record fields') = true ↔
      (∀ field ∈ fields, ∃ other, fields'.get? field.1 = some other ∧
        field.2.agrees other = true) ∧
      ∀ field ∈ fields', ∃ ty, fields.get? field.1 = some ty ∧ ty.agrees field.2 = true := by
  simp only [agrees, Bool.and_eq_true, eachFound_iff, List.all_eq_true, foundIn_iff]

/-- Functions agree when parameters agree by position and results agree. -/
theorem agrees_function_iff {params params' : Entries Ty} {result result' : Ty}
    {body body' : NodeId} :
    (Ty.function params result body).agrees (.function params' result' body') = true ↔
      (params.length = params'.length ∧
        ∀ pair ∈ params.zip params', pair.1.2.agrees pair.2.2 = true) ∧
      result.agrees result' = true := by
  simp only [agrees, Bool.and_eq_true, pairwiseAgree_iff]

/-- The rule for a record, seen from the other side, is the same pair of conditions. -/
theorem agrees_symm {ty other : Ty} (h : ty.agrees other = true) : other.agrees ty = true := by
  induction ty using Ty.induct generalizing other with
  | int => cases other <;> simp_all [agrees]
  | string => cases other <;> simp_all [agrees]
  | bool => cases other <;> simp_all [agrees]
  | undefined => cases other <;> simp_all [agrees]
  | unknown => cases other <;> simp_all [agrees]
  | array elem length ih =>
    cases other with
    | array elem' length' => exact ih h
    | _ => simp [agrees] at h
  | record fields ih =>
    cases other with
    | record fields' =>
      obtain ⟨hfields, hfields'⟩ := agrees_record_iff.mp h
      refine agrees_record_iff.mpr ⟨fun field hmem => ?_, fun field hmem => ?_⟩
      · obtain ⟨ty, hty, hagree⟩ := hfields' field hmem
        exact ⟨ty, hty, ih _ (Entries.mem_of_get?_eq_some hty) hagree⟩
      · obtain ⟨ty, hty, hagree⟩ := hfields field hmem
        exact ⟨ty, hty, ih field hmem hagree⟩
    | _ => simp [agrees] at h
  | function params result body ih ihresult =>
    cases other with
    | function params' result' body' =>
      simp only [agrees, Bool.and_eq_true] at h ⊢
      exact ⟨pairwiseAgree_symm ih h.1, ihresult h.2⟩
    | _ => simp [agrees] at h

theorem pairwiseAgree_trans {params middle others : Entries Ty}
    (trans : ∀ param ∈ params, ∀ {ty other : Ty}, param.2.agrees ty = true →
      ty.agrees other = true → param.2.agrees other = true)
    (h : pairwiseAgree params middle = true) (h' : pairwiseAgree middle others = true) :
    pairwiseAgree params others = true := by
  induction params generalizing middle others with
  | nil =>
    cases middle with
    | nil => exact h'
    | cons => simp [pairwiseAgree] at h
  | cons param rest ih =>
    obtain ⟨name, ty⟩ := param
    obtain ⟨hhead, hrest⟩ := List.forall_mem_cons.mp trans
    cases middle with
    | nil => simp [pairwiseAgree] at h
    | cons between rest' =>
      cases others with
      | nil => simp [pairwiseAgree] at h'
      | cons other rest'' =>
        simp only [pairwiseAgree, Bool.and_eq_true] at h h' ⊢
        exact ⟨hhead h.1 h'.1, ih hrest h.2 h'.2⟩

theorem agrees_trans {ty middle other : Ty} (h : ty.agrees middle = true)
    (h' : middle.agrees other = true) : ty.agrees other = true := by
  induction ty using Ty.induct generalizing middle other with
  | int => cases middle <;> first | exact h' | simp [agrees] at h
  | string => cases middle <;> first | exact h' | simp [agrees] at h
  | bool => cases middle <;> first | exact h' | simp [agrees] at h
  | undefined => cases middle <;> first | exact h' | simp [agrees] at h
  | unknown => cases middle <;> first | exact h' | simp [agrees] at h
  | array elem length ih =>
    cases middle with
    | array elem' length' =>
      cases other with
      | array elem'' length'' => exact ih h h'
      | _ => simp [agrees] at h'
    | _ => simp [agrees] at h
  | record fields ih =>
    cases middle with
    | record fields' =>
      cases other with
      | record fields'' =>
        obtain ⟨hto, hback⟩ := agrees_record_iff.mp h
        obtain ⟨hto', hback'⟩ := agrees_record_iff.mp h'
        refine agrees_record_iff.mpr ⟨fun field hmem => ?_, fun field hmem => ?_⟩
        · obtain ⟨ty, hty, hagree⟩ := hto field hmem
          obtain ⟨ty', hty', hagree'⟩ := hto' _ (Entries.mem_of_get?_eq_some hty)
          exact ⟨ty', hty', ih field hmem hagree hagree'⟩
        · obtain ⟨ty', hty', hagree'⟩ := hback' field hmem
          obtain ⟨ty, hty, hagree⟩ := hback _ (Entries.mem_of_get?_eq_some hty')
          exact ⟨ty, hty, ih _ (Entries.mem_of_get?_eq_some hty) hagree hagree'⟩
      | _ => simp [agrees] at h'
    | _ => simp [agrees] at h
  | function params result body ih ihresult =>
    cases middle with
    | function params' result' body' =>
      cases other with
      | function params'' result'' body'' =>
        simp only [agrees, Bool.and_eq_true] at h h' ⊢
        exact ⟨pairwiseAgree_trans ih h.1 h'.1, ihresult h.2 h'.2⟩
      | _ => simp [agrees] at h'
    | _ => simp [agrees] at h

end Ty

end Arbor
