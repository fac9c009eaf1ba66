import Arbor.Proofs.Conflict
import Arbor.Proofs.Echo

/-!
# Checks of types that agree

What the checker does with a type, it does with every type that agrees: it looks at
the kind, at agreement with others, at elements, fields, parameters and results, and
at nothing else.  So if two checks see the same types up to agreement, they complain
in the same places, about the same class of mistake.  The messages may differ, since
they show the types.

A type need not agree with itself, so two types are `Alike` if they are the same or
agree.

* `Ty.Alike.agrees_eq` — types that are alike agree with the same types;
* `Typing.VerdictsAlike` — what a rule decides about types that are alike;
* `Checking.Parallel` — two checks that record alike and yield something related;
* `Typing.call_parallel` and the lemmas before it — a construct is checked in
  parallel if the nodes below are.
-/

namespace Arbor

/-! ### Types -/

namespace Ty

variable {ty ty' asked asked' : Ty}

/-- The same type, or types that agree. -/
def Alike (ty ty' : Ty) : Prop :=
  ty' = ty ∨ ty.agrees ty' = true

theorem Alike.refl (ty : Ty) : ty.Alike ty :=
  .inl rfl

theorem Alike.symm (h : ty.Alike ty') : ty'.Alike ty :=
  h.imp Eq.symm agrees_symm

theorem kind_eq_of_agrees (h : ty.agrees ty' = true) : ty'.kind = ty.kind := by
  cases ty <;> cases ty' <;> first | rfl | cases h

theorem isUnknown_eq_of_agrees (h : ty.agrees ty' = true) : ty'.isUnknown = ty.isUnknown := by
  cases ty <;> cases ty' <;> first | rfl | cases h

theorem Alike.kind_eq (h : ty.Alike ty') : ty'.kind = ty.kind := by
  rcases h with rfl | h
  · rfl
  · exact kind_eq_of_agrees h

theorem Alike.isUnknown_eq (h : ty.Alike ty') : ty'.isUnknown = ty.isUnknown := by
  rcases h with rfl | h
  · rfl
  · exact isUnknown_eq_of_agrees h

theorem Alike.agrees (h : ty.Alike ty') (h' : asked.Alike asked')
    (hagree : ty.agrees asked = true) : ty'.agrees asked' = true := by
  have hleft : ty'.agrees asked = true := by
    rcases h with rfl | h
    · exact hagree
    · exact agrees_trans (agrees_symm h) hagree
  rcases h' with rfl | h'
  · exact hleft
  · exact agrees_trans hleft h'

/-- Types that are alike agree with the same types. -/
theorem Alike.agrees_eq (h : ty.Alike ty') (h' : asked.Alike asked') :
    ty'.agrees asked' = ty.agrees asked :=
  Bool.eq_iff_iff.mpr ⟨h.symm.agrees h'.symm, h.agrees h'⟩

/-- Parameters of functions that agree are alike, one by one. -/
theorem forall₂_alike_of_pairwiseAgree {params params' : Entries Ty}
    (h : pairwiseAgree params params' = true) :
    List.Forall₂ (fun param param' => param.2.Alike param'.2) params params' := by
  obtain ⟨hlength, hpairs⟩ := pairwiseAgree_iff.mp h
  exact List.forall₂_iff_zip.mpr ⟨hlength, fun hpair => .inr (hpairs _ hpair)⟩

end Ty

/-! ### Verdicts -/

namespace Typing

/-- Types that are alike, or complaints of one class. -/
inductive VerdictsAlike : Except Mismatch Ty → Except Mismatch Ty → Prop where
  | ok {ty ty' : Ty} (h : ty.Alike ty') : VerdictsAlike (.ok ty) (.ok ty')
  | error {mismatch mismatch' : Mismatch} (h : mismatch'.kind = mismatch.kind) :
    VerdictsAlike (.error mismatch) (.error mismatch')

theorem VerdictsAlike.refl (verdict : Except Mismatch Ty) : VerdictsAlike verdict verdict := by
  cases verdict with
  | ok ty => exact .ok (.refl ty)
  | error mismatch => exact .error rfl

/-- It is enough to look at types that agree. -/
theorem verdictsAlike_of_agrees {verdict : Ty → Except Mismatch Ty}
    (h : ∀ ty ty', ty.agrees ty' = true → VerdictsAlike (verdict ty) (verdict ty')) {ty ty' : Ty}
    (halike : ty.Alike ty') : VerdictsAlike (verdict ty) (verdict ty') := by
  rcases halike with rfl | hagree
  · exact .refl _
  · exact h ty ty' hagree

variable {ty ty' left left' right right' : Ty}

theorem returnType_alike {result result' : Option Ty}
    (hresult : Option.Rel Ty.Alike result result') (h : ty.Alike ty') :
    VerdictsAlike (returnType result ty) (returnType result' ty') := by
  cases hresult with
  | none => exact .ok h
  | some hasked =>
    simp only [returnType]
    rw [h.isUnknown_eq, hasked.isUnknown_eq, h.agrees_eq hasked]
    split
    · exact .ok h
    · exact .error rfl

theorem assignmentType_alike (hvalue : left.Alike left') (htarget : right.Alike right') :
    VerdictsAlike (assignmentType left right) (assignmentType left' right') := by
  unfold assignmentType
  rw [hvalue.isUnknown_eq, htarget.isUnknown_eq, hvalue.agrees_eq htarget]
  split
  · exact .refl _
  · split
    · exact .ok htarget
    · exact .error rfl

theorem binaryType_alike (op : Operator) (hleft : left.Alike left') (hright : right.Alike right') :
    VerdictsAlike (binaryType op left right) (binaryType op left' right') := by
  unfold binaryType
  rw [hleft.isUnknown_eq, hright.isUnknown_eq, hleft.agrees_eq hright, hleft.kind_eq]
  split
  · exact .refl _
  · split
    · exact .error rfl
    · split
      · exact .error rfl
      · split
        · exact .refl _
        · exact .ok hleft

theorem negationType_alike (h : ty.Alike ty') :
    VerdictsAlike (negationType ty) (negationType ty') := by
  refine verdictsAlike_of_agrees (fun ty ty' hagree => ?_) h
  cases ty <;> cases ty' <;> first | exact .refl _ | exact .error rfl | cases hagree

theorem elementType_alike (h : ty.Alike ty') :
    VerdictsAlike (elementType ty) (elementType ty') := by
  refine verdictsAlike_of_agrees (fun ty ty' hagree => ?_) h
  cases ty with
  | array elem length =>
    cases ty' with
    | array elem' length' => exact .ok (.inr hagree)
    | _ => cases hagree
  | _ => cases ty' <;> first | exact .refl _ | exact .error rfl | cases hagree

/-- A name finds fields that are alike, or none. -/
theorem fieldType_alike (name : String) (h : ty.Alike ty') :
    VerdictsAlike (fieldType name ty) (fieldType name ty') := by
  refine verdictsAlike_of_agrees (fun ty ty' hagree => ?_) h
  cases ty with
  | record fields =>
    cases ty' with
    | record fields' =>
      have hfound : Option.Rel (fun found found' => found.agrees found' = true)
          (Entries.get? name fields) (Entries.get? name fields') :=
        Ty.field?_rel_of_agrees hagree name
      unfold fieldType
      dsimp only
      generalize Entries.get? name fields = found at hfound
      generalize Entries.get? name fields' = found' at hfound
      cases hfound with
      | none => exact .error rfl
      | some hfound => exact .ok (.inr hfound)
    | _ => cases hagree
  | _ => cases ty' <;> first | exact .refl _ | exact .error rfl | cases hagree

theorem variableType_alike (name : String) (h : ty.Alike ty') :
    VerdictsAlike (variableType name ty) (variableType name ty') := by
  unfold variableType
  rw [h.isUnknown_eq]
  split
  · exact .error rfl
  · exact .ok h

end Typing

/-! ### Checks side by side -/

/-- Complaints of one class at one node. -/
structure Mismatch.Alike (mismatch mismatch' : Located Mismatch) : Prop where
  kind : mismatch'.cause.kind = mismatch.cause.kind
  node : mismatch'.node = mismatch.node

/-- As many complaints, and alike one by one. -/
def Mismatch.AllAlike (mismatches mismatches' : Array (Located Mismatch)) : Prop :=
  List.Forall₂ Mismatch.Alike mismatches.toList mismatches'.toList

namespace Checking

variable {α α' β β' γ γ' : Type}

/-- From mismatches that are alike, both checks lack fuel, or both record alike and yield something
related. -/
def Parallel (rel : α → α' → Prop) (checking : Checking α) (checking' : Checking α') : Prop :=
  ∀ mismatches mismatches', Mismatch.AllAlike mismatches mismatches' →
    Option.Rel (fun reached reached' => rel reached.1 reached'.1 ∧
      Mismatch.AllAlike reached.2 reached'.2) (checking mismatches) (checking' mismatches')

theorem parallel_pure {rel : α → α' → Prop} {a : α} {a' : α'} (h : rel a a') :
    Parallel rel (pure a) (pure a') :=
  fun _ _ halike => .some ⟨h, halike⟩

theorem Parallel.bind {rel : α → α' → Prop} {rel' : β → β' → Prop} {checking : Checking α}
    {checking' : Checking α'} {next : α → Checking β} {next' : α' → Checking β'}
    (h : Parallel rel checking checking')
    (hnext : ∀ a a', rel a a' → Parallel rel' (next a) (next' a')) :
    Parallel rel' (checking >>= next) (checking' >>= next') := by
  intro mismatches mismatches' halike
  have hfirst := h mismatches mismatches' halike
  rw [bind_apply, bind_apply]
  generalize checking mismatches = outcome at hfirst ⊢
  generalize checking' mismatches' = outcome' at hfirst ⊢
  cases hfirst with
  | none => exact .none
  | some hreached => exact hnext _ _ hreached.1 _ _ hreached.2

theorem Parallel.bind_pure {rel : α → α' → Prop} {rel' : β → β' → Prop} {checking : Checking α}
    {checking' : Checking α'} {change : α → β} {change' : α' → β'}
    (h : Parallel rel checking checking')
    (hchange : ∀ a a', rel a a' → rel' (change a) (change' a')) :
    Parallel rel' (checking >>= fun a => pure (change a))
      (checking' >>= fun a => pure (change' a)) :=
  h.bind fun a a' ha => parallel_pure (hchange a a' ha)

theorem Parallel.forM {list : List γ} {list' : List γ'} {check : γ → Checking Unit}
    {check' : γ' → Checking Unit}
    (h : List.Forall₂ (fun c c' => Parallel (fun _ _ => True) (check c) (check' c')) list list') :
    Parallel (fun _ _ => True) (list.forM check) (list'.forM check') := by
  induction h with
  | nil => exact parallel_pure trivial
  | cons hhead _ ih => exact hhead.bind fun _ _ _ => ih

theorem Parallel.mapM {rel : α → α' → Prop} {list : List γ} {list' : List γ'}
    {check : γ → Checking α} {check' : γ' → Checking α'}
    (h : List.Forall₂ (fun c c' => Parallel rel (check c) (check' c')) list list') :
    Parallel (List.Forall₂ rel) (list.mapM check) (list'.mapM check') := by
  induction h with
  | nil => exact parallel_pure .nil
  | cons hhead _ ih =>
    rw [List.mapM_cons, List.mapM_cons]
    exact hhead.bind fun _ _ ha => ih.bind_pure fun _ _ has => .cons ha has

theorem parallel_report {mismatch mismatch' : Mismatch} (h : mismatch'.kind = mismatch.kind)
    (node : NodeId) :
    Parallel (fun _ _ => True) (Typing.report mismatch node) (Typing.report mismatch' node) := by
  intro mismatches mismatches' halike
  rw [report_apply, report_apply]
  refine .some ⟨trivial, ?_⟩
  unfold Mismatch.AllAlike
  rw [Array.toList_append, Array.toList_append]
  exact List.rel_append halike (.cons ⟨h, rfl⟩ .nil)

theorem parallel_reject {mismatch mismatch' : Mismatch} (h : mismatch'.kind = mismatch.kind)
    (node : NodeId) :
    Parallel Ty.Alike (Typing.reject mismatch node) (Typing.reject mismatch' node) :=
  (parallel_report h node).bind_pure fun _ _ _ => .refl .unknown

/-- The same computation beside the recorded mismatches. -/
theorem parallel_lift (computed : Option α) :
    Parallel Eq (liftM computed : Checking α) (liftM computed) := by
  cases computed with
  | none => exact fun _ _ _ => .none
  | some a => exact parallel_pure rfl

theorem parallel_expect {ty ty' asked asked' : Ty} (h : ty.Alike ty') (hasked : asked.Alike asked')
    {mismatch mismatch' : Mismatch} (hkind : mismatch'.kind = mismatch.kind) (node : NodeId) :
    Parallel (fun _ _ => True) (Typing.expect ty asked mismatch node)
      (Typing.expect ty' asked' mismatch' node) := by
  unfold Typing.expect
  rw [h.isUnknown_eq, h.agrees_eq hasked]
  split
  · exact parallel_pure trivial
  · exact parallel_report hkind node

theorem parallel_settle (id : NodeId) {verdict verdict' : Except Mismatch Ty}
    (h : Typing.VerdictsAlike verdict verdict') :
    Parallel Ty.Alike (Typing.settle id verdict) (Typing.settle id verdict') := by
  cases h with
  | ok h => exact parallel_pure h
  | error h => exact parallel_reject h id

/-- Literals count what was recorded, and as much is recorded on both sides. -/
theorem Parallel.unlessReported {checking checking' : Checking Unit}
    (h : Parallel (fun _ _ => True) checking checking') (ty : Ty) :
    Parallel Ty.Alike (Typing.unlessReported ty checking)
      (Typing.unlessReported ty checking') := by
  have hget : Parallel Mismatch.AllAlike get get := fun _ _ halike => .some ⟨halike, halike⟩
  refine hget.bind fun before before' hbefore => h.bind fun _ _ _ => ?_
  refine hget.bind_pure fun after after' hafter => ?_
  have hbefore : before'.size = before.size := hbefore.length_eq.symm
  have hafter : after'.size = after.size := hafter.length_eq.symm
  rw [hbefore, hafter]
  exact .refl _

end Checking

/-! ### The rules -/

namespace Typing

open Checking

/-- The arguments of a call are compared with the parameters. -/
theorem arguments_parallel {params params' : List (String × Ty)} {types types' : List Ty}
    (hparams : List.Forall₂ (fun param param' => param.2.Alike param'.2) params params')
    (htypes : List.Forall₂ Ty.Alike types types') (args : List NodeId) :
    Parallel (fun _ _ => True)
      (((params.zip types).zip args).forM fun ((param, ty), arg) =>
        expect ty param.2 (.argument param.2 ty) arg)
      (((params'.zip types').zip args).forM fun ((param, ty), arg) =>
        expect ty param.2 (.argument param.2 ty) arg) := by
  apply Parallel.forM
  induction hparams generalizing types types' args with
  | nil => exact .nil
  | cons hparam _ ih =>
    cases htypes with
    | nil => exact .nil
    | cons hty hrest =>
      cases args with
      | nil => exact .nil
      | cons arg args => exact .cons (parallel_expect hty hparam (by rfl) arg) (ih hrest args)

/-- A call of functions whose parameters and results are alike. -/
theorem called_parallel {id : NodeId} {args : List NodeId} {params params' : List (String × Ty)}
    {types types' : List Ty} {result result' : Ty}
    (hparams : List.Forall₂ (fun param param' => param.2.Alike param'.2) params params')
    (hresult : result.Alike result') (htypes : List.Forall₂ Ty.Alike types types') :
    Parallel Ty.Alike
      (if params.length ≠ types.length then reject (.argumentCount params.length types.length) id
        else do
          ((params.zip types).zip args).forM fun ((param, ty), arg) =>
            expect ty param.2 (.argument param.2 ty) arg
          pure result)
      (if params'.length ≠ types'.length then
          reject (.argumentCount params'.length types'.length) id
        else do
          ((params'.zip types').zip args).forM fun ((param, ty), arg) =>
            expect ty param.2 (.argument param.2 ty) arg
          pure result') := by
  rw [hparams.length_eq, htypes.length_eq]
  split
  · exact parallel_reject rfl id
  · exact (arguments_parallel hparams htypes args).bind_pure fun _ _ _ => hresult

variable {lengthOf : NodeId → Sizing Nat} {check check' : Checker}
  (hcheck : ∀ id, Parallel Ty.Alike (check id) (check' id))
include hcheck

theorem discard_parallel (id : NodeId) : Parallel (fun _ _ => True)
    (discard (check id) : Checking Unit) (discard (check' id)) :=
  (hcheck id).bind fun _ _ _ => parallel_pure trivial

theorem optionally_parallel (statement : Option NodeId) :
    Parallel (fun _ _ => True) (optionally check statement) (optionally check' statement) := by
  cases statement with
  | none => exact parallel_pure trivial
  | some statement => exact discard_parallel hcheck statement

theorem arrayLiteral_parallel (id : NodeId) (elem : Ty) (length : NodeId)
    (elements : List NodeId) :
    Parallel Ty.Alike (arrayLiteral check lengthOf id elem length elements)
      (arrayLiteral check' lengthOf id elem length elements) := by
  apply Parallel.unlessReported
  refine (Parallel.forM (List.forall₂_same.mpr fun element _ => (hcheck element).bind
    fun _ _ hty => parallel_expect hty (.refl elem) (by rfl) element)).bind fun _ _ _ => ?_
  refine (parallel_lift (lengthOf length).run).bind fun outcome _ heq => ?_
  subst heq
  unfold compareLength
  split
  · split
    · exact parallel_pure trivial
    · exact parallel_report rfl id
  · exact parallel_report rfl length

theorem recordLiteral_parallel (id : NodeId) (fields : Entries Ty) (inits : List FieldInit) :
    Parallel Ty.Alike (recordLiteral check id fields inits)
      (recordLiteral check' id fields inits) := by
  apply Parallel.unlessReported
  refine Parallel.forM (List.forall₂_same.mpr fun init _ => ?_)
  refine (hcheck init.value).bind fun ty ty' hty => ?_
  unfold initializes
  split
  · exact parallel_report rfl id
  · exact parallel_expect hty (.refl _) (by rfl) init.value

theorem conditional_parallel (init : Option NodeId) (test thenBranch : NodeId)
    (elseBranch : Option NodeId) :
    Parallel Ty.Alike (conditional check init test thenBranch elseBranch)
      (conditional check' init test thenBranch elseBranch) :=
  (optionally_parallel hcheck init).bind fun _ _ _ => (hcheck test).bind fun _ _ hty =>
    (parallel_expect hty (.refl .bool) (by rfl) test).bind fun _ _ _ =>
    (discard_parallel hcheck thenBranch).bind fun _ _ _ =>
    (optionally_parallel hcheck elseBranch).bind_pure fun _ _ _ => Ty.Alike.refl .undefined

theorem subscript_parallel (id base index : NodeId) :
    Parallel Ty.Alike (subscript check id base index) (subscript check' id base index) := by
  refine (hcheck index).bind fun _ _ hty => ?_
  refine (parallel_expect hty (.refl .int) (by rfl) index).bind fun _ _ _ => ?_
  exact (hcheck base).bind fun _ _ hbase => parallel_settle id (elementType_alike hbase)

theorem call_parallel (id callee : NodeId) (args : List NodeId) :
    Parallel Ty.Alike (call check id callee args) (call check' id callee args) := by
  refine (hcheck callee).bind fun f f' hf => ?_
  refine (Parallel.mapM (List.forall₂_same.mpr fun arg _ => hcheck arg)).bind
    fun types types' htypes => ?_
  rcases hf with rfl | hagree
  -- the same type need not agree with itself, so this is a case of its own
  · cases f' with
    | unknown => exact parallel_pure (.refl .unknown)
    | function params result body =>
      exact called_parallel (List.forall₂_same.mpr fun param _ => .refl param.2) (.refl result)
        htypes
    | _ => exact parallel_reject rfl id
  · cases f with
    | unknown =>
      cases f' with
      | unknown => exact parallel_pure (.refl .unknown)
      | _ => cases hagree
    | function params result body =>
      cases f' with
      | function params' result' body' =>
        obtain ⟨hparams, hresult⟩ := Bool.and_eq_true_iff.mp hagree
        exact called_parallel (Ty.forall₂_alike_of_pairwiseAgree hparams) (.inr hresult) htypes
      | _ => cases hagree
    | _ => cases f' <;> first | exact parallel_reject (by rfl) id | cases hagree

end Typing

end Arbor
