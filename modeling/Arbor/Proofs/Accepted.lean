import Arbor.Proofs.Fuel

/-!
# Accepted nodes

A node is accepted with a type when checking it yields this type and records
nothing (`Accepts`).  The checker never takes a mismatch back, so nothing was
recorded anywhere below an accepted node either, and its children are accepted
too.

For every construct this gives back what the checker compared: the lemmas
`Accepts.binary`, `Accepts.subscript` and so on read an acceptance as a typing
rule, without fuel.

* `check_grows` — checking only adds mismatches;
* `Checking.passes_bind_iff` — a sequence records nothing if no part does.
-/

namespace Arbor

variable {α β : Type}

namespace Checking

/-- Mismatches are only added, and none that was recorded is taken back. -/
def Grows (checking : Checking α) : Prop :=
  ∀ mismatches a mismatches', checking mismatches = some (a, mismatches') →
    ∃ added, mismatches' = mismatches ++ added

/-- The checking yields `a` and records nothing. -/
def Passes (checking : Checking α) (a : α) : Prop :=
  checking #[] = some (a, #[])

theorem bind_apply (checking : Checking α) (next : α → Checking β)
    (mismatches : Array (Located Mismatch)) :
    (checking >>= next) mismatches =
      (checking mismatches).bind fun reached => next reached.1 reached.2 := rfl

theorem grows_pure (a : α) : (pure a : Checking α).Grows := by
  intro mismatches b mismatches' h
  cases h
  exact ⟨#[], Array.append_empty.symm⟩

theorem grows_get : (get : Checking (Array (Located Mismatch))).Grows := by
  intro mismatches b mismatches' h
  cases h
  exact ⟨#[], Array.append_empty.symm⟩

theorem grows_report (mismatch : Mismatch) (node : NodeId) :
    (Typing.report mismatch node).Grows := by
  intro mismatches b mismatches' h
  cases h
  exact ⟨#[⟨mismatch, node⟩], Array.push_eq_append⟩

theorem grows_lift (computed : Option α) : Grows (liftM computed : Checking α) := by
  intro mismatches b mismatches' h
  obtain ⟨a, -, ha⟩ := Option.bind_eq_some_iff.mp h
  cases ha
  exact ⟨#[], Array.append_empty.symm⟩

theorem Grows.bind {checking : Checking α} {next : α → Checking β} (h : checking.Grows)
    (hnext : ∀ a, (next a).Grows) : (checking >>= next).Grows := by
  intro mismatches b final hboth
  rw [bind_apply] at hboth
  obtain ⟨⟨a, middle⟩, hfirst, hrest⟩ := Option.bind_eq_some_iff.mp hboth
  obtain ⟨added, rfl⟩ := h _ _ _ hfirst
  obtain ⟨added', rfl⟩ := hnext a _ _ _ hrest
  exact ⟨added ++ added', Array.append_assoc⟩

theorem Grows.forM {list : List α} {check : α → Checking Unit} (h : ∀ a ∈ list, (check a).Grows) :
    (list.forM check).Grows := by
  induction list with
  | nil => exact grows_pure ()
  | cons a rest ih =>
    obtain ⟨hhead, hrest⟩ := List.forall_mem_cons.mp h
    exact hhead.bind fun _ => ih hrest

theorem Grows.mapM {list : List α} {check : α → Checking β} (h : ∀ a ∈ list, (check a).Grows) :
    (list.mapM check).Grows := by
  induction list with
  | nil => exact grows_pure []
  | cons a rest ih =>
    obtain ⟨hhead, hrest⟩ := List.forall_mem_cons.mp h
    rw [List.mapM_cons]
    exact hhead.bind fun _ => (ih hrest).bind fun _ => grows_pure _

theorem grows_reject (mismatch : Mismatch) (node : NodeId) :
    (Typing.reject mismatch node).Grows :=
  (grows_report mismatch node).bind fun _ => grows_pure _

theorem grows_expect (ty asked : Ty) (mismatch : Mismatch) (node : NodeId) :
    (Typing.expect ty asked mismatch node).Grows := by
  unfold Typing.expect
  split
  · exact grows_pure ()
  · exact grows_report mismatch node

theorem Grows.unlessReported {checking : Checking Unit} (h : checking.Grows) (ty : Ty) :
    (Typing.unlessReported ty checking).Grows :=
  grows_get.bind fun _ => h.bind fun _ => grows_get.bind fun _ => grows_pure _

@[simp] theorem passes_pure {a b : α} : (pure a : Checking α).Passes b ↔ a = b := by
  constructor
  · intro h
    cases h
    rfl
  · intro heq
    subst heq
    rfl

/-- If a sequence records nothing, then neither part does. -/
theorem passes_bind_iff {checking : Checking α} {next : α → Checking β} {b : β}
    (hnext : ∀ a, (next a).Grows) :
    (checking >>= next).Passes b ↔ ∃ a, checking.Passes a ∧ (next a).Passes b := by
  constructor
  · intro h
    obtain ⟨⟨a, middle⟩, hfirst, hrest⟩ := Option.bind_eq_some_iff.mp h
    obtain ⟨added, hadded⟩ := hnext a _ _ _ hrest
    obtain ⟨rfl, -⟩ := Array.append_eq_empty_iff.mp hadded.symm
    exact ⟨a, hfirst, hrest⟩
  · intro h
    obtain ⟨a, hfirst, hrest⟩ := h
    exact Option.bind_eq_some_iff.mpr ⟨(a, #[]), hfirst, hrest⟩

theorem not_passes_report {mismatch : Mismatch} {node : NodeId} {done : Unit} :
    ¬ (Typing.report mismatch node).Passes done := by
  intro h
  have hsize := congrArg (fun reached => reached.map (·.2.size)) h
  cases hsize

theorem not_passes_reject {mismatch : Mismatch} {node : NodeId} {ty : Ty} :
    ¬ (Typing.reject mismatch node).Passes ty := by
  intro h
  obtain ⟨done, hreport, -⟩ := (passes_bind_iff fun _ => grows_pure _).mp h
  exact not_passes_report hreport

theorem passes_expect_iff {ty asked : Ty} {mismatch : Mismatch} {node : NodeId} {done : Unit} :
    (Typing.expect ty asked mismatch node).Passes done ↔
      (ty.isUnknown || ty.agrees asked) = true := by
  unfold Typing.expect
  split
  · next h => simp [h]
  · next h => exact iff_of_false not_passes_report h

theorem passes_lift_iff {computed : Option α} {a : α} :
    Passes (liftM computed : Checking α) a ↔ computed = some a := by
  constructor
  · intro h
    obtain ⟨b, hb, ha⟩ := Option.bind_eq_some_iff.mp h
    cases ha
    exact hb
  · intro heq
    subst heq
    rfl

theorem passes_forM_iff {list : List α} {check : α → Checking Unit} {done : Unit}
    (hcheck : ∀ a, (check a).Grows) :
    (list.forM check).Passes done ↔ ∀ a ∈ list, (check a).Passes () := by
  induction list with
  | nil => simp [List.forM]
  | cons a rest ih =>
    have hcons : (a :: rest).forM check = (check a >>= fun _ => rest.forM check) := rfl
    rw [hcons, passes_bind_iff fun _ => Grows.forM fun b _ => hcheck b, List.forall_mem_cons, ← ih]
    exact ⟨fun ⟨_, hhead, hrest⟩ => ⟨hhead, hrest⟩, fun ⟨hhead, hrest⟩ => ⟨_, hhead, hrest⟩⟩

theorem passes_get_iff {mismatches : Array (Located Mismatch)} :
    (get : Checking (Array (Located Mismatch))).Passes mismatches ↔ #[] = mismatches :=
  passes_pure

theorem passes_unlessReported_iff {checking : Checking Unit} {ty ty' : Ty}
    (h : checking.Grows) :
    (Typing.unlessReported ty checking).Passes ty' ↔ checking.Passes () ∧ ty = ty' := by
  have hlast : ∀ before : Nat, Grows (do
      let after := (← get).size
      pure (if after = before then ty else .unknown) : Checking Ty) :=
    fun _ => grows_get.bind fun _ => grows_pure _
  have hrest : ∀ before : Array (Located Mismatch), Grows (do
      checking
      let after := (← get).size
      pure (if after = before.size then ty else .unknown) : Checking Ty) :=
    fun before => h.bind fun _ => hlast before.size
  rw [Typing.unlessReported, passes_bind_iff hrest]
  constructor
  · intro h
    obtain ⟨before, hbefore, hchecking⟩ := h
    obtain ⟨done, hdone, hafter⟩ := (passes_bind_iff fun _ => hlast _).mp hchecking
    obtain ⟨after, hempty, hty⟩ := (passes_bind_iff fun _ => grows_pure _).mp hafter
    obtain rfl := passes_get_iff.mp hbefore
    obtain rfl := passes_get_iff.mp hempty
    exact ⟨hdone, passes_pure.mp hty⟩
  · intro h
    obtain ⟨hdone, rfl⟩ := h
    refine ⟨#[], passes_get_iff.mpr rfl, (passes_bind_iff fun _ => hlast _).mpr ⟨(), hdone, ?_⟩⟩
    exact (passes_bind_iff fun _ => grows_pure _).mpr
      ⟨#[], passes_get_iff.mpr rfl, passes_pure.mpr rfl⟩

end Checking

/-! ### The rules only add mismatches -/

namespace Typing

open Checking

theorem settle_grows (id : NodeId) (verdict : Except Mismatch Ty) : (settle id verdict).Grows := by
  cases verdict with
  | ok ty => exact grows_pure ty
  | error mismatch => exact grows_reject mismatch id

theorem passes_settle_iff {id : NodeId} {verdict : Except Mismatch Ty} {ty : Ty} :
    (settle id verdict).Passes ty ↔ verdict = .ok ty := by
  cases verdict with
  | ok ty' => simp [settle]
  | error mismatch => exact iff_of_false not_passes_reject nofun

theorem compareLength_grows (id length : NodeId) (given : Nat)
    (outcome : Except DefaultFault Nat) : (compareLength id length given outcome).Grows := by
  unfold compareLength
  split
  · split
    · exact grows_pure ()
    · exact grows_report _ id
  · exact grows_report _ length

theorem sized_grows (id length : NodeId) (given : Nat)
    (computed : Option (Except DefaultFault Nat)) :
    Grows ((liftM computed : Checking _) >>= fun outcome =>
      compareLength id length given outcome) :=
  (grows_lift computed).bind fun outcome => compareLength_grows id length given outcome

theorem initializes_grows (id : NodeId) (fields : Entries Ty) (init : FieldInit) (ty : Ty) :
    (initializes id fields init ty).Grows := by
  unfold initializes
  split
  · exact grows_report _ id
  · exact grows_expect _ _ _ _

/-- What a call does when its callee and its arguments have been checked. -/
theorem called_grows (id : NodeId) (args : List NodeId) (callee : Ty) (types : List Ty) :
    Grows (match callee with
      | .unknown => pure .unknown
      | .function params result _ =>
        if params.length ≠ types.length then reject (.argumentCount params.length types.length) id
        else do
          ((params.zip types).zip args).forM fun ((param, ty), arg) =>
            expect ty param.2 (.argument param.2 ty) arg
          pure result
      | ty => reject (.notCallable ty) id) := by
  split
  · exact grows_pure _
  · split
    · exact grows_reject _ id
    · exact (Grows.forM fun _ _ => grows_expect _ _ _ _).bind fun _ => grows_pure _
  · exact grows_reject _ id

variable {program : Program} {result : Option Ty} {lengthOf : NodeId → Sizing Nat}
  {check : Checker} (hcheck : ∀ id, (check id).Grows)
include hcheck

theorem discard_grows (id : NodeId) : Grows (discard (check id) : Checking Unit) :=
  (hcheck id).bind fun _ => grows_pure ()

theorem optionally_grows (statement : Option NodeId) : (optionally check statement).Grows := by
  cases statement with
  | none => exact grows_pure ()
  | some statement => exact discard_grows hcheck statement

theorem expect_grows (id : NodeId) (asked : Ty) (mismatch : Ty → Mismatch) (node : NodeId) :
    Grows (check id >>= fun ty => expect ty asked (mismatch ty) node) :=
  (hcheck id).bind fun ty => grows_expect ty asked _ node

theorem arrayLiteral_grows (id : NodeId) (elem : Ty) (length : NodeId) (elements : List NodeId) :
    (arrayLiteral check lengthOf id elem length elements).Grows := by
  unfold arrayLiteral
  apply Grows.unlessReported
  have helements := Grows.forM fun element (_ : element ∈ elements) =>
    expect_grows hcheck element elem (.element · elem) element
  exact helements.bind fun _ => sized_grows id length elements.length _

theorem call_grows (id callee : NodeId) (args : List NodeId) :
    (call check id callee args).Grows :=
  (hcheck callee).bind fun f => (Grows.mapM fun arg _ => hcheck arg).bind fun types =>
    called_grows id args f types

theorem rule_grows (id : NodeId) : (rule program result lengthOf check id).Grows := by
  unfold rule
  split
  · exact grows_reject _ id
  · next node _ =>
    cases node with
    | int n => exact grows_pure _
    | string s => exact grows_pure _
    | bool b => exact grows_pure _
    | nil => exact grows_pure _
    | arrayLiteral elem length elements => exact arrayLiteral_grows hcheck id elem length _
    | recordLiteral fields inits =>
      exact Grows.unlessReported (Grows.forM fun init _ =>
        (hcheck init.value).bind fun ty => initializes_grows id fields init ty) _
    | block body =>
      exact (Grows.forM fun statement _ => discard_grows hcheck statement).bind fun _ =>
        grows_pure _
    | ret value => exact (hcheck value).bind fun _ => settle_grows id _
    | cond init test thenBranch elseBranch =>
      exact (optionally_grows hcheck init).bind fun _ => (hcheck test).bind fun _ =>
        (grows_expect _ _ _ _).bind fun _ => (discard_grows hcheck thenBranch).bind fun _ =>
        (optionally_grows hcheck elseBranch).bind fun _ => grows_pure _
    | assign target value declares =>
      exact (hcheck value).bind fun _ => (hcheck target).bind fun _ => settle_grows id _
    | binary op left right =>
      exact (hcheck left).bind fun _ => (hcheck right).bind fun _ => settle_grows id _
    | not operand => exact (hcheck operand).bind fun _ => settle_grows id _
    | var name ty => exact settle_grows id _
    | subscript base index =>
      exact (hcheck index).bind fun _ => (grows_expect _ _ _ _).bind fun _ =>
        (hcheck base).bind fun _ => settle_grows id _
    | select base name => exact (hcheck base).bind fun _ => settle_grows id _
    | call callee args => exact call_grows hcheck id callee _

end Typing

/-- Checking never takes a mismatch back. -/
theorem check_grows (program : Program) (result : Option Ty) (fuel : Nat) (id : NodeId) :
    (check program result fuel id).Grows := by
  induction fuel generalizing id with
  | zero =>
    intro mismatches a mismatches' h
    cases h
  | succ fuel ih =>
    rw [check_succ]
    exact Typing.rule_grows ih id

/-! ### What acceptance says -/

/-- The node is checked without a mismatch, and this is its type. -/
def Accepts (program : Program) (result : Option Ty) (id : NodeId) (ty : Ty) : Prop :=
  ∃ fuel, (check program result fuel id).Passes ty

namespace Accepts

open Checking Typing

variable {program : Program} {result : Option Ty} {id : NodeId} {ty : Ty}

/-- The rule of an accepted node passes, over the types of nodes that are accepted. -/
theorem exists_rule (h : Accepts program result id ty) : ∃ fuel,
    (rule program result (staticLength (eval program fuel)) (check program result fuel)
      id).Passes ty := by
  obtain ⟨fuel, h⟩ := h
  cases fuel with
  | zero => cases h
  | succ fuel =>
    rw [check_succ] at h
    exact ⟨fuel, h⟩

/-- A verdict on one child. -/
theorem of_settle {fuel : Nat} {child : NodeId} {verdict : Ty → Except Mismatch Ty}
    (h : (check program result fuel child >>= fun ty => settle id (verdict ty)).Passes ty) :
    ∃ t, Accepts program result child t ∧ verdict t = .ok ty := by
  obtain ⟨t, hchild, hverdict⟩ := (passes_bind_iff fun t => settle_grows id (verdict t)).mp h
  exact ⟨t, ⟨fuel, hchild⟩, passes_settle_iff.mp hverdict⟩

/-- A verdict on two children. -/
theorem of_settle_two {fuel : Nat} {first second : NodeId} {verdict : Ty → Ty → Except Mismatch Ty}
    (h : (check program result fuel first >>= fun ty => check program result fuel second >>=
      fun ty' => settle id (verdict ty ty')).Passes ty) :
    ∃ t t', Accepts program result first t ∧ Accepts program result second t' ∧
      verdict t t' = .ok ty := by
  have hgrows := fun t => (check_grows program result fuel second).bind fun t' =>
    settle_grows id (verdict t t')
  obtain ⟨t, hfirst, hrest⟩ := (passes_bind_iff hgrows).mp h
  obtain ⟨t', hsecond, hverdict⟩ := of_settle hrest
  exact ⟨t, t', ⟨fuel, hfirst⟩, hsecond, hverdict⟩

/-- A type that is compared with the one asked for. -/
theorem of_expect {fuel : Nat} {child node : NodeId} {asked : Ty} {mismatch : Ty → Mismatch}
    {done : Unit} (h : Passes (check program result fuel child >>= fun ty =>
      expect ty asked (mismatch ty) node) done) :
    ∃ t, Accepts program result child t ∧ (t.isUnknown || t.agrees asked) = true := by
  obtain ⟨t, hchild, hexpect⟩ := (passes_bind_iff fun t => grows_expect t asked _ node).mp h
  exact ⟨t, ⟨fuel, hchild⟩, passes_expect_iff.mp hexpect⟩

theorem of_discard {fuel : Nat} {child : NodeId} {done : Unit}
    (h : Passes (discard (check program result fuel child) : Checking Unit) done) :
    ∃ t, Accepts program result child t := by
  obtain ⟨t, hchild, -⟩ := (passes_bind_iff fun _ => grows_pure ()).mp h
  exact ⟨t, fuel, hchild⟩

theorem of_optionally {fuel : Nat} {statement : Option NodeId} {done : Unit}
    (h : (optionally (check program result fuel) statement).Passes done) :
    ∀ child ∈ statement, ∃ t, Accepts program result child t := by
  intro child hchild
  cases Option.mem_def.mp hchild
  exact of_discard h

theorem int {n : Int64} (hnode : program.node? id = some (.int n))
    (h : Accepts program result id ty) : ty = .int := by
  obtain ⟨fuel, h⟩ := h.exists_rule
  rw [rule, hnode] at h
  exact (passes_pure.mp h).symm

theorem string {s : String} (hnode : program.node? id = some (.string s))
    (h : Accepts program result id ty) : ty = .string := by
  obtain ⟨fuel, h⟩ := h.exists_rule
  rw [rule, hnode] at h
  exact (passes_pure.mp h).symm

theorem bool {b : Bool} (hnode : program.node? id = some (.bool b))
    (h : Accepts program result id ty) : ty = .bool := by
  obtain ⟨fuel, h⟩ := h.exists_rule
  rw [rule, hnode] at h
  exact (passes_pure.mp h).symm

theorem arrayLiteral {elem : Ty} {length : NodeId} {elements : Span NodeId}
    (hnode : program.node? id = some (.arrayLiteral elem length elements))
    (h : Accepts program result id ty) :
    ty = .array elem length ∧
      (∀ element ∈ program.children elements, ∃ t, Accepts program result element t ∧
        (t.isUnknown || t.agrees elem) = true) ∧
      ∃ n, HasLength program length n ∧
        ((program.children elements).length = 0 ∨ (program.children elements).length = n) := by
  obtain ⟨fuel, h⟩ := h.exists_rule
  have hgrows : ∀ element, Grows (check program result fuel element >>= fun ty =>
      expect ty elem (.element ty elem) element) :=
    fun element => expect_grows (check_grows program result fuel) element elem _ element
  have hsized : ∀ _ : Unit, Grows ((liftM (staticLength (eval program fuel) length).run :
      Checking _) >>= fun outcome =>
        compareLength id length (program.children elements).length outcome) :=
    fun _ => sized_grows id length _ _
  rw [rule, hnode] at h
  obtain ⟨hall, rfl⟩ := (passes_unlessReported_iff
    ((Grows.forM fun element _ => hgrows element).bind hsized)).mp h
  obtain ⟨_, helements, hcompare⟩ := (passes_bind_iff hsized).mp hall
  obtain ⟨outcome, hlength, hcompare⟩ :=
    (passes_bind_iff fun outcome => compareLength_grows id length _ outcome).mp hcompare
  have hlength := passes_lift_iff.mp hlength
  refine ⟨rfl, fun element helement => ?_, ?_⟩
  · exact of_expect ((passes_forM_iff hgrows).mp helements element helement)
  · cases outcome with
    | error cause => exact absurd hcompare not_passes_report
    | ok n =>
      refine ⟨n, ⟨fuel, hlength⟩, ?_⟩
      rw [compareLength] at hcompare
      split at hcompare
      · next h => simpa using h
      · exact absurd hcompare not_passes_report

theorem recordLiteral {fields : Entries Ty} {inits : Span FieldInit}
    (hnode : program.node? id = some (.recordLiteral fields inits))
    (h : Accepts program result id ty) :
    ty = .record fields ∧ ∀ init ∈ program.fieldInits inits, ∃ t field,
      Accepts program result init.value t ∧ fields.get? init.name = some field ∧
        (t.isUnknown || t.agrees field) = true := by
  obtain ⟨fuel, h⟩ := h.exists_rule
  have hgrows : ∀ init : FieldInit, Grows (check program result fuel init.value >>= fun ty =>
      initializes id fields init ty) :=
    fun init => (check_grows _ _ _ _).bind fun ty => initializes_grows id fields init ty
  rw [rule, hnode] at h
  obtain ⟨hall, rfl⟩ := (passes_unlessReported_iff (Grows.forM fun init _ => hgrows init)).mp h
  refine ⟨rfl, fun init hinit => ?_⟩
  have hpasses := (passes_forM_iff hgrows).mp hall init hinit
  obtain ⟨t, hvalue, hfield⟩ := (passes_bind_iff fun t => initializes_grows id fields init t).mp
    hpasses
  unfold initializes at hfield
  split at hfield
  · exact absurd hfield not_passes_report
  · next field hfound => exact ⟨t, field, ⟨fuel, hvalue⟩, hfound, passes_expect_iff.mp hfield⟩

theorem block {body : Span NodeId} (hnode : program.node? id = some (.block body))
    (h : Accepts program result id ty) :
    ∀ statement ∈ program.children body, ∃ t, Accepts program result statement t := by
  obtain ⟨fuel, h⟩ := h.exists_rule
  have hgrows := check_grows program result fuel
  rw [rule, hnode] at h
  obtain ⟨_, hbody, -⟩ := (passes_bind_iff fun _ => grows_pure _).mp h
  intro statement hstatement
  exact of_discard ((passes_forM_iff fun statement => discard_grows hgrows statement).mp hbody
    statement hstatement)

theorem ret {value : NodeId} (hnode : program.node? id = some (.ret value))
    (h : Accepts program result id ty) :
    ∃ t, Accepts program result value t ∧ returnType result t = .ok ty := by
  obtain ⟨fuel, h⟩ := h.exists_rule
  rw [rule, hnode] at h
  exact of_settle h

theorem cond {init : Option NodeId} {test thenBranch : NodeId} {elseBranch : Option NodeId}
    (hnode : program.node? id = some (.cond init test thenBranch elseBranch))
    (h : Accepts program result id ty) :
    (∀ statement ∈ init, ∃ t, Accepts program result statement t) ∧
      (∃ t, Accepts program result test t ∧ (t.isUnknown || t.agrees .bool) = true) ∧
      (∃ t, Accepts program result thenBranch t) ∧
      ∀ statement ∈ elseBranch, ∃ t, Accepts program result statement t := by
  obtain ⟨fuel, h⟩ := h.exists_rule
  have hgrows := check_grows program result fuel
  have hafter : ∀ _ : Unit, Grows (optionally (check program result fuel) elseBranch >>= fun _ =>
      pure Ty.undefined) :=
    fun _ => (optionally_grows hgrows elseBranch).bind fun _ => grows_pure _
  have hbranches : ∀ _ : Unit, Grows ((discard (check program result fuel thenBranch) :
      Checking Unit) >>= fun _ => optionally (check program result fuel) elseBranch >>= fun _ =>
      pure Ty.undefined) :=
    fun _ => (discard_grows hgrows thenBranch).bind hafter
  rw [rule, hnode] at h
  obtain ⟨_, hinit, h⟩ := (passes_bind_iff fun _ => (hgrows test).bind fun ty =>
    (grows_expect ty .bool _ test).bind hbranches).mp h
  obtain ⟨t, htest, h⟩ := (passes_bind_iff fun ty =>
    (grows_expect ty .bool _ test).bind hbranches).mp h
  obtain ⟨_, hbool, h⟩ := (passes_bind_iff hbranches).mp h
  obtain ⟨_, hthen, h⟩ := (passes_bind_iff hafter).mp h
  obtain ⟨_, helse, -⟩ := (passes_bind_iff fun _ => grows_pure _).mp h
  exact ⟨of_optionally hinit, ⟨t, ⟨fuel, htest⟩, passes_expect_iff.mp hbool⟩, of_discard hthen,
    of_optionally helse⟩

theorem assign {target value : NodeId} {declares : Bool}
    (hnode : program.node? id = some (.assign target value declares))
    (h : Accepts program result id ty) :
    ∃ t t', Accepts program result value t ∧ Accepts program result target t' ∧
      assignmentType t t' = .ok ty := by
  obtain ⟨fuel, h⟩ := h.exists_rule
  rw [rule, hnode] at h
  exact of_settle_two h

theorem binary {op : Operator} {left right : NodeId}
    (hnode : program.node? id = some (.binary op left right))
    (h : Accepts program result id ty) :
    ∃ t t', Accepts program result left t ∧ Accepts program result right t' ∧
      binaryType op t t' = .ok ty := by
  obtain ⟨fuel, h⟩ := h.exists_rule
  rw [rule, hnode] at h
  exact of_settle_two h

theorem not {operand : NodeId} (hnode : program.node? id = some (.not operand))
    (h : Accepts program result id ty) :
    ∃ t, Accepts program result operand t ∧ negationType t = .ok ty := by
  obtain ⟨fuel, h⟩ := h.exists_rule
  rw [rule, hnode] at h
  exact of_settle h

theorem var {name : String} {attached : Ty} (hnode : program.node? id = some (.var name attached))
    (h : Accepts program result id ty) : variableType name attached = .ok ty := by
  obtain ⟨fuel, h⟩ := h.exists_rule
  rw [rule, hnode] at h
  exact passes_settle_iff.mp h

theorem subscript {base index : NodeId} (hnode : program.node? id = some (.subscript base index))
    (h : Accepts program result id ty) :
    (∃ t, Accepts program result index t ∧ (t.isUnknown || t.agrees .int) = true) ∧
      ∃ t, Accepts program result base t ∧ elementType t = .ok ty := by
  obtain ⟨fuel, h⟩ := h.exists_rule
  have hbase : ∀ _ : Unit, Grows (check program result fuel base >>= fun ty =>
      settle id (elementType ty)) :=
    fun _ => (check_grows _ _ _ _).bind fun ty => settle_grows id (elementType ty)
  rw [rule, hnode] at h
  obtain ⟨t, hindex, h⟩ := (passes_bind_iff fun ty =>
    (grows_expect ty .int _ index).bind hbase).mp h
  obtain ⟨_, hint, h⟩ := (passes_bind_iff hbase).mp h
  exact ⟨⟨t, ⟨fuel, hindex⟩, passes_expect_iff.mp hint⟩, of_settle h⟩

theorem select {base : NodeId} {name : String} (hnode : program.node? id = some (.select base name))
    (h : Accepts program result id ty) :
    ∃ t, Accepts program result base t ∧ fieldType name t = .ok ty := by
  obtain ⟨fuel, h⟩ := h.exists_rule
  rw [rule, hnode] at h
  exact of_settle h

end Accepts

end Arbor
