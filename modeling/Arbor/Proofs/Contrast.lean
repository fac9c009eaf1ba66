import Arbor.Proofs.Legible
import Arbor.Proofs.Unmasked

/-!
# A difference of types is visible

Some mismatches are about two types that should agree and do not: an assignment, a
return, the operands of an operator, an argument, an element, an initializer.  The
message shows both types, and since types with one text agree, the reader sees two
different texts.

The rest is to know that the checker says so only of types that do not agree.  This is
a property of each single mismatch (`Mismatch.Justified`), so it is enough that every
rule records only mismatches that have it.

* `Checking.RecordsOnly` — a property of all that is recorded;
* `Typing.rule_justified`, `check_justified` — no two types are said to differ that
  agree;
* `contrasts_visible` — the texts of two types that are said to differ do differ.
-/

namespace Arbor

namespace Ty

theorem agrees_comm (ty other : Ty) : ty.agrees other = other.agrees ty :=
  Bool.eq_iff_iff.mpr ⟨agrees_symm, agrees_symm⟩

end Ty

/-! ### What is recorded -/

variable {α β : Type} {P : Mismatch → Prop}

namespace Checking

/-- If all that was recorded before has the property, then so has all that is recorded then. -/
def RecordsOnly (checking : Checking α) (P : Mismatch → Prop) : Prop :=
  ∀ mismatches a final, checking mismatches = some (a, final) →
    (∀ mismatch ∈ mismatches, P mismatch.cause) → ∀ mismatch ∈ final, P mismatch.cause

theorem recordsOnly_pure (a : α) : (pure a : Checking α).RecordsOnly P := by
  intro mismatches b final hpure
  cases hpure
  exact id

theorem recordsOnly_get : (get : Checking (Array (Located Mismatch))).RecordsOnly P := by
  intro mismatches b final hget
  cases hget
  exact id

theorem recordsOnly_lift (computed : Option α) :
    RecordsOnly (liftM computed : Checking α) P := by
  intro mismatches b final hlift
  obtain ⟨a, -, ha⟩ := Option.bind_eq_some_iff.mp hlift
  cases ha
  exact id

theorem recordsOnly_report {mismatch : Mismatch} (h : P mismatch) (node : NodeId) :
    (Typing.report mismatch node).RecordsOnly P := by
  intro mismatches done final hreport hbefore
  cases hreport
  intro recorded hrecorded
  rcases Array.mem_push.mp hrecorded with hmem | rfl
  · exact hbefore recorded hmem
  · exact h

theorem RecordsOnly.bind {checking : Checking α} {next : α → Checking β}
    (h : checking.RecordsOnly P) (hnext : ∀ a, (next a).RecordsOnly P) :
    (checking >>= next).RecordsOnly P := by
  intro mismatches b final hboth hbefore
  obtain ⟨⟨a, middle⟩, hfirst, hrest⟩ := Option.bind_eq_some_iff.mp hboth
  exact hnext a _ _ _ hrest (h _ _ _ hfirst hbefore)

theorem RecordsOnly.forM {list : List α} {check : α → Checking Unit}
    (h : ∀ a, (check a).RecordsOnly P) : (list.forM check).RecordsOnly P := by
  induction list with
  | nil => exact recordsOnly_pure ()
  | cons a rest ih => exact (h a).bind fun _ => ih

theorem RecordsOnly.mapM {list : List α} {check : α → Checking β}
    (h : ∀ a, (check a).RecordsOnly P) : (list.mapM check).RecordsOnly P := by
  induction list with
  | nil => exact recordsOnly_pure []
  | cons a rest ih =>
    rw [List.mapM_cons]
    exact (h a).bind fun _ => ih.bind fun _ => recordsOnly_pure _

theorem recordsOnly_reject {mismatch : Mismatch} (h : P mismatch) (node : NodeId) :
    (Typing.reject mismatch node).RecordsOnly P :=
  (recordsOnly_report h node).bind fun _ => recordsOnly_pure _

/-- Something is recorded only about types that do not agree. -/
theorem recordsOnly_expect {ty asked : Ty} {mismatch : Mismatch}
    (h : ty.agrees asked = false → P mismatch) (node : NodeId) :
    (Typing.expect ty asked mismatch node).RecordsOnly P := by
  unfold Typing.expect
  split
  · exact recordsOnly_pure ()
  · next hdiffer =>
    rw [Bool.or_eq_true, not_or, Bool.not_eq_true, Bool.not_eq_true] at hdiffer
    exact recordsOnly_report (h hdiffer.2) node

theorem RecordsOnly.unlessReported {checking : Checking Unit} (h : checking.RecordsOnly P)
    (ty : Ty) : (Typing.unlessReported ty checking).RecordsOnly P :=
  recordsOnly_get.bind fun _ => h.bind fun _ => recordsOnly_get.bind fun _ => recordsOnly_pure _

theorem recordsOnly_settle {verdict : Except Mismatch Ty}
    (h : ∀ mismatch, verdict = .error mismatch → P mismatch) (id : NodeId) :
    (Typing.settle id verdict).RecordsOnly P := by
  cases verdict with
  | ok ty => exact recordsOnly_pure ty
  | error mismatch => exact recordsOnly_reject (h mismatch rfl) id

end Checking

/-! ### Messages about two types -/

namespace Mismatch

/-- The two types that a mismatch shows as different, in the order of the message. -/
def contrast? : Mismatch → Option (Ty × Ty)
  | .result expected given => some (expected, given)
  | .assignment value target => some (value, target)
  | .operands left right => some (left, right)
  | .argument param given => some (param, given)
  | .element given elem => some (given, elem)
  | .initializer given field => some (given, field)
  | _ => none

/-- If two types are shown as different, then they do not agree. -/
def Justified (mismatch : Mismatch) : Prop :=
  ∀ first second, mismatch.contrast? = some (first, second) → first.agrees second = false

/-- A message shows both types in full. -/
theorem message_eq_of_contrast? {mismatch : Mismatch} {first second : Ty}
    (h : mismatch.contrast? = some (first, second)) : ∃ before between after,
      mismatch.message = before ++ first.text ++ between ++ second.text ++ after := by
  cases mismatch <;> cases h
  all_goals exact ⟨_, _, "", String.append_empty.symm⟩

theorem justified_of_contrast?_eq_none {mismatch : Mismatch} (h : mismatch.contrast? = none) :
    mismatch.Justified := by
  intro first second hcontrast
  cases h.symm.trans hcontrast

theorem justified_of_contrast?_eq_some {mismatch : Mismatch} {first second : Ty}
    (h : mismatch.contrast? = some (first, second)) (hdiffer : first.agrees second = false) :
    mismatch.Justified := by
  intro first' second' hcontrast
  cases h.symm.trans hcontrast
  exact hdiffer

/-- A message may show the two types the other way round than they were compared. -/
theorem justified_of_contrast?_eq_some_swap {mismatch : Mismatch} {first second : Ty}
    (h : mismatch.contrast? = some (first, second)) (hdiffer : second.agrees first = false) :
    mismatch.Justified :=
  justified_of_contrast?_eq_some h (Ty.agrees_comm first second ▸ hdiffer)

end Mismatch

/-! ### The rules -/

namespace Typing

open Checking Mismatch

variable {program : Program} {result : Option Ty} {lengthOf : NodeId → Sizing Nat}
  {check : Checker} {mismatch : Mismatch} {left right : Ty}

theorem returnType_justified (h : returnType result left = .error mismatch) :
    mismatch.Justified := by
  unfold returnType at h
  cases result with
  | none => cases h
  | some asked =>
    dsimp only at h
    split at h
    · cases h
    · next hdiffer =>
      cases h
      rw [Bool.or_eq_true, not_or, Bool.not_eq_true, Bool.not_eq_true] at hdiffer
      exact justified_of_contrast?_eq_some_swap rfl hdiffer.2

theorem assignmentType_justified (h : assignmentType left right = .error mismatch) :
    mismatch.Justified := by
  unfold assignmentType at h
  split at h
  · cases h
  · split at h
    · cases h
    · next hdiffer =>
      cases h
      exact justified_of_contrast?_eq_some rfl (Bool.eq_false_iff.mpr hdiffer)

theorem binaryType_justified {op : Operator} (h : binaryType op left right = .error mismatch) :
    mismatch.Justified := by
  unfold binaryType at h
  split at h
  · cases h
  · split at h
    · next hdiffer =>
      cases h
      exact justified_of_contrast?_eq_some rfl (by simpa using hdiffer)
    · split at h
      · cases h
        exact justified_of_contrast?_eq_none rfl
      · cases h

theorem negationType_justified (h : negationType left = .error mismatch) :
    mismatch.Justified := by
  cases left <;> cases h
  all_goals exact justified_of_contrast?_eq_none rfl

theorem elementType_justified (h : elementType left = .error mismatch) :
    mismatch.Justified := by
  cases left <;> cases h
  all_goals exact justified_of_contrast?_eq_none rfl

theorem fieldType_justified {name : String} (h : fieldType name left = .error mismatch) :
    mismatch.Justified := by
  unfold fieldType at h
  split at h
  · cases h
  · split at h
    · cases h
    · cases h
      exact justified_of_contrast?_eq_none rfl
  · cases h
    exact justified_of_contrast?_eq_none rfl

theorem variableType_justified {name : String} (h : variableType name left = .error mismatch) :
    mismatch.Justified := by
  unfold variableType at h
  split at h
  · cases h
    exact justified_of_contrast?_eq_none rfl
  · cases h

theorem compareLength_justified (id length : NodeId) (given : Nat)
    (outcome : Except DefaultFault Nat) :
    (compareLength id length given outcome).RecordsOnly Justified := by
  unfold compareLength
  split
  · split
    · exact recordsOnly_pure ()
    · exact recordsOnly_report (justified_of_contrast?_eq_none rfl) id
  · exact recordsOnly_report (justified_of_contrast?_eq_none rfl) length

theorem initializes_justified (id : NodeId) (fields : Entries Ty) (init : FieldInit) (ty : Ty) :
    (initializes id fields init ty).RecordsOnly Justified := by
  unfold initializes
  split
  · exact recordsOnly_report (justified_of_contrast?_eq_none rfl) id
  · exact recordsOnly_expect (justified_of_contrast?_eq_some rfl) init.value

variable (hcheck : ∀ id, (check id).RecordsOnly Justified)
include hcheck

theorem discard_justified (id : NodeId) :
    RecordsOnly (discard (check id) : Checking Unit) Justified :=
  (hcheck id).bind fun _ => recordsOnly_pure ()

theorem optionally_justified (statement : Option NodeId) :
    (optionally check statement).RecordsOnly Justified := by
  cases statement with
  | none => exact recordsOnly_pure ()
  | some statement => exact discard_justified hcheck statement

theorem arrayLiteral_justified (id : NodeId) (elem : Ty) (length : NodeId)
    (elements : List NodeId) :
    (arrayLiteral check lengthOf id elem length elements).RecordsOnly Justified := by
  unfold arrayLiteral
  apply RecordsOnly.unlessReported
  refine RecordsOnly.bind (RecordsOnly.forM fun element => ?_) fun _ => ?_
  · exact (hcheck element).bind fun ty =>
      recordsOnly_expect (justified_of_contrast?_eq_some rfl) element
  · exact (recordsOnly_lift _).bind fun outcome =>
      compareLength_justified id length elements.length outcome

theorem call_justified (id callee : NodeId) (args : List NodeId) :
    (call check id callee args).RecordsOnly Justified := by
  refine (hcheck callee).bind fun f => (RecordsOnly.mapM hcheck).bind fun types => ?_
  split
  · exact recordsOnly_pure _
  · split
    · exact recordsOnly_reject (justified_of_contrast?_eq_none rfl) id
    · refine (RecordsOnly.forM fun given => ?_).bind fun _ => recordsOnly_pure _
      exact recordsOnly_expect (justified_of_contrast?_eq_some_swap rfl) given.2
  · exact recordsOnly_reject (justified_of_contrast?_eq_none rfl) id

/-- A rule shows two types as different only if they do not agree. -/
theorem rule_justified (id : NodeId) :
    (rule program result lengthOf check id).RecordsOnly Justified := by
  unfold rule
  split
  · exact recordsOnly_reject (justified_of_contrast?_eq_none rfl) id
  · next node _ =>
    cases node with
    | int n => exact recordsOnly_pure _
    | string s => exact recordsOnly_pure _
    | bool b => exact recordsOnly_pure _
    | nil => exact recordsOnly_pure _
    | arrayLiteral elem length elements => exact arrayLiteral_justified hcheck id elem length _
    | recordLiteral fields inits =>
      exact RecordsOnly.unlessReported (RecordsOnly.forM fun init =>
        (hcheck init.value).bind fun ty => initializes_justified id fields init ty) _
    | block body =>
      exact (RecordsOnly.forM fun statement => discard_justified hcheck statement).bind fun _ =>
        recordsOnly_pure _
    | ret value =>
      exact (hcheck value).bind fun _ => recordsOnly_settle (fun _ => returnType_justified) id
    | cond init test thenBranch elseBranch =>
      refine (optionally_justified hcheck init).bind fun _ => (hcheck test).bind fun ty => ?_
      refine (recordsOnly_expect (fun _ => ?_) test).bind fun _ => ?_
      · exact justified_of_contrast?_eq_none rfl
      · exact (discard_justified hcheck thenBranch).bind fun _ =>
          (optionally_justified hcheck elseBranch).bind fun _ => recordsOnly_pure _
    | assign target value declares =>
      exact (hcheck value).bind fun _ => (hcheck target).bind fun _ =>
        recordsOnly_settle (fun _ => assignmentType_justified) id
    | binary op left right =>
      exact (hcheck left).bind fun _ => (hcheck right).bind fun _ =>
        recordsOnly_settle (fun _ => binaryType_justified) id
    | not operand =>
      exact (hcheck operand).bind fun _ => recordsOnly_settle (fun _ => negationType_justified) id
    | var name ty => exact recordsOnly_settle (fun _ => variableType_justified) id
    | subscript base index =>
      refine (hcheck index).bind fun ty => ?_
      refine (recordsOnly_expect (fun _ => ?_) index).bind fun _ => ?_
      · exact justified_of_contrast?_eq_none rfl
      · exact (hcheck base).bind fun _ => recordsOnly_settle (fun _ => elementType_justified) id
    | select base name =>
      exact (hcheck base).bind fun _ => recordsOnly_settle (fun _ => fieldType_justified) id
    | call callee args => exact call_justified hcheck id callee _

end Typing

/-- Checking shows two types as different only if they do not agree. -/
theorem check_justified (program : Program) (result : Option Ty) (fuel : Nat) (id : NodeId) :
    (check program result fuel id).RecordsOnly Mismatch.Justified := by
  induction fuel generalizing id with
  | zero => exact nofun
  | succ fuel ih =>
    rw [check_succ]
    exact Typing.rule_justified ih id

/-- **A difference of types is visible in the message.**  Types whose fields are named by
identifiers and that agree with themselves agree whenever they have the same text.  So each mismatch
that is recorded about two such types shows two different texts. -/
theorem contrasts_visible :
    (∀ ty other : Ty, ty.Legible → other.Legible → ty.agrees ty = true → ty.text = other.text →
      ty.agrees other = true) ∧
    ∀ {program : Program} {result : Option Ty} {id : NodeId} {ty : Ty}
      {added : Array (Located Mismatch)}, Reports program result id ty added →
      ∀ mismatch ∈ added, ∀ first second, mismatch.cause.contrast? = some (first, second) →
        (∃ before between after, mismatch.cause.message =
          before ++ first.text ++ between ++ second.text ++ after) ∧
        (first.Legible → second.Legible → first.agrees first = true →
          first.text ≠ second.text) := by
  refine ⟨fun ty other h h' hself htext => h.agrees_of_text_eq h' hself htext, ?_⟩
  intro program result id ty added hreports mismatch hmem first second hcontrast
  refine ⟨Mismatch.message_eq_of_contrast? hcontrast, fun h h' hself htext => ?_⟩
  obtain ⟨fuel, hcheck⟩ := hreports
  have hjustified := check_justified program result fuel id _ _ _ hcheck (by simp) mismatch hmem
  have hagree := h.agrees_of_text_eq h' hself htext
  rw [hjustified first second hcontrast] at hagree
  cases hagree

/-- A record with a list and a function. -/
def handlerType (length : NodeId) (param : String) (result : Ty) (body : NodeId) : Ty :=
  .record [("at", .array .int length), ("f_1", .function [(param, .bool)] result body)]

theorem legible_handlerType {length : NodeId} {param : String} {result : Ty} {body : NodeId}
    (h : result.Legible) : (handlerType length param result body).Legible := by
  have hint : Ty.int.Legible := Ty.legible_of_parts_eq_nil nofun rfl
  have hbool : Ty.bool.Legible := Ty.legible_of_parts_eq_nil nofun rfl
  have hat : Text.IsIdentifier "at" := by decide
  have hf : Text.IsIdentifier "f_1" := by decide
  refine Ty.legible_record_iff.mpr (List.forall_mem_cons.mpr ⟨⟨hat, ?_⟩, ?_⟩)
  · exact Ty.legible_array_iff.mpr hint
  · refine List.forall_mem_singleton.mpr ⟨hf, ?_⟩
    exact Ty.legible_function_iff.mpr ⟨List.forall_mem_singleton.mpr hbool, h⟩

/-- Assigns a record whose function yields a string where one that yields an integer is asked
for. -/
def differingProgram : Program where
  nodes := #[.var "p" (handlerType ⟨7⟩ "a" .int ⟨0⟩), .var "q" (handlerType ⟨8⟩ "b" .string ⟨1⟩),
    .assign ⟨0⟩ ⟨1⟩ false]

/-- What the text leaves out does not matter, and what differs is shown. -/
theorem contrasts_visible_differingProgram :
    (handlerType ⟨7⟩ "a" .int ⟨0⟩).text = "struct\x7bat []int, f_1 func(bool) int\x7d" ∧
    (handlerType ⟨7⟩ "a" .int ⟨0⟩).agrees (handlerType ⟨8⟩ "b" .int ⟨1⟩) = true ∧
    Reports differingProgram none ⟨2⟩ .unknown
      #[⟨.assignment (handlerType ⟨8⟩ "b" .string ⟨1⟩) (handlerType ⟨7⟩ "a" .int ⟨0⟩), ⟨2⟩⟩] ∧
    (handlerType ⟨8⟩ "b" .string ⟨1⟩).text ≠ (handlerType ⟨7⟩ "a" .int ⟨0⟩).text := by
  have hint : ∀ {length param body}, (handlerType length param .int body).Legible :=
    legible_handlerType (Ty.legible_of_parts_eq_nil nofun rfl)
  have hstring : ∀ {length param body}, (handlerType length param .string body).Legible :=
    legible_handlerType (Ty.legible_of_parts_eq_nil nofun rfl)
  have hreports : Reports differingProgram none ⟨2⟩ .unknown
      #[⟨.assignment (handlerType ⟨8⟩ "b" .string ⟨1⟩) (handlerType ⟨7⟩ "a" .int ⟨0⟩), ⟨2⟩⟩] :=
    ⟨2, rfl⟩
  obtain ⟨hagrees, hshown⟩ := contrasts_visible
  refine ⟨by decide, hagrees _ _ hint hint (by decide) (by decide), hreports, ?_⟩
  exact (hshown hreports _ (Array.mem_singleton.mpr rfl) _ _ rfl).2 hstring hint (by decide)

end Arbor
