import Arbor.Proofs.Halting

/-!
# Nothing is masked

A rule may give up on a node: because a type is unknown, because a call has the
wrong number of arguments or its callee is no function.  It never does so before
all the children have been checked, so whatever is wrong below a node is reported
with the node, in one piece.

A checking `Includes` some mismatches if it records them one after another, among
whatever else it records.

* `Typing.rule_includes` — a rule includes what the check of a child reports;
* `check_includes` — so does the check of every node above it;
* `nothing_masked` — in an acyclic program all checks end, and what a node reports
  by itself is a segment of what every node above it reports.
-/

namespace Arbor

variable {α β : Type} {added : Array (Located Mismatch)}

namespace Checking

/-- The mismatches in `added` are recorded, one after another. -/
def Includes (checking : Checking α) (added : Array (Located Mismatch)) : Prop :=
  ∀ mismatches a final, checking mismatches = some (a, final) →
    ∃ before after, final = mismatches ++ before ++ added ++ after

theorem includes_of_appends {checking : Checking α}
    (h : ∀ mismatches a final, checking mismatches = some (a, final) →
      final = mismatches ++ added) : checking.Includes added := by
  intro mismatches a final hchecking
  exact ⟨#[], #[], by rw [h _ _ _ hchecking, Array.append_empty, Array.append_empty]⟩

/-- What comes later is recorded behind. -/
theorem Includes.bind {checking : Checking α} {next : α → Checking β}
    (h : checking.Includes added) (hnext : ∀ a, (next a).Grows) :
    (checking >>= next).Includes added := by
  intro mismatches b final hboth
  obtain ⟨⟨a, middle⟩, hfirst, hrest⟩ := Option.bind_eq_some_iff.mp hboth
  obtain ⟨before, after, rfl⟩ := h _ _ _ hfirst
  obtain ⟨more, rfl⟩ := hnext a _ _ _ hrest
  exact ⟨before, after ++ more, by rw [Array.append_assoc]⟩

/-- What came earlier was recorded in front. -/
theorem Grows.bind_includes {checking : Checking α} {next : α → Checking β}
    (h : checking.Grows) (hnext : ∀ a, (next a).Includes added) :
    (checking >>= next).Includes added := by
  intro mismatches b final hboth
  obtain ⟨⟨a, middle⟩, hfirst, hrest⟩ := Option.bind_eq_some_iff.mp hboth
  obtain ⟨earlier, rfl⟩ := h _ _ _ hfirst
  obtain ⟨before, after, rfl⟩ := hnext a _ _ _ hrest
  exact ⟨earlier ++ before, after, by rw [← Array.append_assoc]⟩

theorem Includes.forM {list : List α} {check : α → Checking Unit} {a : α} (ha : a ∈ list)
    (h : (check a).Includes added) (hcheck : ∀ a, (check a).Grows) :
    (list.forM check).Includes added := by
  induction list with
  | nil => cases ha
  | cons head rest ih =>
    rcases List.mem_cons.mp ha with rfl | hrest
    · exact h.bind fun _ => Grows.forM fun a _ => hcheck a
    · exact (hcheck head).bind_includes fun _ => ih hrest

theorem Includes.mapM {list : List α} {check : α → Checking β} {a : α} (ha : a ∈ list)
    (h : (check a).Includes added) (hcheck : ∀ a, (check a).Grows) :
    (list.mapM check).Includes added := by
  induction list with
  | nil => cases ha
  | cons head rest ih =>
    rw [List.mapM_cons]
    rcases List.mem_cons.mp ha with rfl | hrest
    · exact h.bind fun _ => (Grows.mapM fun a _ => hcheck a).bind fun _ => grows_pure _
    · exact (hcheck head).bind_includes fun _ => (ih hrest).bind fun _ => grows_pure _

theorem Includes.unlessReported {checking : Checking Unit} (h : checking.Includes added) (ty : Ty) :
    (Typing.unlessReported ty checking).Includes added :=
  grows_get.bind_includes fun _ => h.bind fun _ => grows_get.bind fun _ => grows_pure _

end Checking

/-! ### The rules -/

namespace Typing

open Checking

variable {program : Program} {result : Option Ty} {lengthOf : NodeId → Sizing Nat}
  {check : Checker} {id child : NodeId} {node : Node} (h : (check child).Includes added)
include h

theorem discard_includes : Includes (discard (check child) : Checking Unit) added :=
  h.bind fun _ => grows_pure ()

theorem optionally_includes {statement : Option NodeId} (hchild : child ∈ statement) :
    (optionally check statement).Includes added := by
  cases Option.mem_def.mp hchild
  exact discard_includes h

/-- A verdict on one child. -/
theorem settle_includes (verdict : Ty → Except Mismatch Ty) :
    Includes (check child >>= fun ty => settle id (verdict ty)) added :=
  h.bind fun ty => settle_grows id (verdict ty)

variable (hcheck : ∀ id, (check id).Grows)
include hcheck

theorem arrayLiteral_includes {elem : Ty} {length : NodeId} {elements : List NodeId}
    (hchild : child ∈ elements) :
    (arrayLiteral check lengthOf id elem length elements).Includes added := by
  unfold arrayLiteral
  apply Includes.unlessReported
  have helements := Includes.forM hchild (h.bind fun ty => grows_expect ty elem _ child)
    fun element => expect_grows hcheck element elem (.element · elem) element
  exact helements.bind fun _ => sized_grows id length elements.length _

theorem recordLiteral_includes {fields : Entries Ty} {inits : List FieldInit}
    (hchild : child ∈ inits.map (·.value)) :
    (recordLiteral check id fields inits).Includes added := by
  obtain ⟨init, hinit, rfl⟩ := List.mem_map.mp hchild
  unfold recordLiteral
  apply Includes.unlessReported
  exact Includes.forM hinit (h.bind fun ty => initializes_grows id fields init ty)
    fun init => (hcheck init.value).bind fun ty => initializes_grows id fields init ty

theorem conditional_includes {init : Option NodeId} {test thenBranch : NodeId}
    {elseBranch : Option NodeId}
    (hchild : child ∈ init.toList ++ [test, thenBranch] ++ elseBranch.toList) :
    (conditional check init test thenBranch elseBranch).Includes added := by
  have htested := fun ty => grows_expect ty .bool (.testNotBool ty) test
  have hafter : ∀ _ : Unit, Grows (optionally check elseBranch >>= fun _ => pure Ty.undefined) :=
    fun _ => (optionally_grows hcheck elseBranch).bind fun _ => grows_pure _
  have hbranches : ∀ _ : Unit, Grows ((discard (check thenBranch) : Checking Unit) >>= fun _ =>
      optionally check elseBranch >>= fun _ => pure Ty.undefined) :=
    fun _ => (discard_grows hcheck thenBranch).bind hafter
  unfold conditional
  simp only [List.mem_append, List.mem_cons, List.not_mem_nil, or_false, Option.mem_toList]
    at hchild
  rcases hchild with (hinit | rfl | rfl) | helse
  · exact (optionally_includes h hinit).bind fun _ => (hcheck test).bind fun ty =>
      (htested ty).bind hbranches
  · exact (optionally_grows hcheck init).bind_includes fun _ => h.bind fun ty =>
      (htested ty).bind hbranches
  · exact (optionally_grows hcheck init).bind_includes fun _ =>
      (hcheck test).bind_includes fun ty => (htested ty).bind_includes fun _ =>
        (discard_includes h).bind hafter
  · exact (optionally_grows hcheck init).bind_includes fun _ =>
      (hcheck test).bind_includes fun ty => (htested ty).bind_includes fun _ =>
        (discard_grows hcheck thenBranch).bind_includes fun _ =>
          (optionally_includes h helse).bind fun _ => grows_pure _

/-- A verdict on two children. -/
theorem settle_two_includes {first second : NodeId} (hchild : child = first ∨ child = second)
    (verdict : Ty → Ty → Except Mismatch Ty) :
    Includes (check first >>= fun ty => check second >>= fun ty' =>
      settle id (verdict ty ty')) added := by
  rcases hchild with rfl | rfl
  · exact h.bind fun ty => (hcheck second).bind fun ty' => settle_grows id (verdict ty ty')
  · exact (hcheck first).bind_includes fun ty => settle_includes h (verdict ty)

theorem subscript_includes {base index : NodeId} (hchild : child = base ∨ child = index) :
    (subscript check id base index).Includes added := by
  have htested := fun ty => grows_expect ty .int (.indexNotInt ty) index
  unfold subscript
  rcases hchild with rfl | rfl
  · exact (hcheck index).bind_includes fun ty => (htested ty).bind_includes fun _ =>
      settle_includes h elementType
  · exact h.bind fun ty => (htested ty).bind fun _ => (hcheck base).bind fun ty =>
      settle_grows id (elementType ty)

/-- The callee and all arguments have been checked before anything can be wrong with the call. -/
theorem call_includes {callee : NodeId} {args : List NodeId} (hchild : child ∈ callee :: args) :
    (call check id callee args).Includes added := by
  have hargs : Grows (args.mapM check) := Grows.mapM fun arg _ => hcheck arg
  unfold call
  rcases List.mem_cons.mp hchild with rfl | harg
  · exact h.bind fun f => hargs.bind fun types => called_grows id args f types
  · exact (hcheck callee).bind_includes fun f =>
      (Includes.mapM harg h hcheck).bind fun types => called_grows id args f types

/-- A rule includes what the check of a child includes. -/
theorem rule_includes (hnode : program.node? id = some node)
    (hchild : child ∈ node.children program) :
    (rule program result lengthOf check id).Includes added := by
  unfold rule
  rw [hnode]
  cases node with
  | int n => cases hchild
  | string s => cases hchild
  | bool b => cases hchild
  | nil => cases hchild
  | var name ty => cases hchild
  | arrayLiteral elem length elements => exact arrayLiteral_includes h hcheck hchild
  | recordLiteral fields inits => exact recordLiteral_includes h hcheck hchild
  | block body =>
    exact (Includes.forM hchild (discard_includes h) (discard_grows hcheck)).bind fun _ =>
      grows_pure _
  | ret value =>
    obtain rfl := List.mem_singleton.mp hchild
    exact settle_includes h (returnType result)
  | cond init test thenBranch elseBranch => exact conditional_includes h hcheck hchild
  | assign target value declares =>
    exact settle_two_includes h hcheck (by simpa [Node.children, or_comm] using hchild)
      assignmentType
  | binary op left right =>
    exact settle_two_includes h hcheck (by simpa [Node.children] using hchild) (binaryType op)
  | not operand =>
    obtain rfl := List.mem_singleton.mp hchild
    exact settle_includes h negationType
  | subscript base index =>
    exact subscript_includes h hcheck (by simpa [Node.children] using hchild)
  | select base name =>
    obtain rfl := List.mem_singleton.mp hchild
    exact settle_includes h (fieldType name)
  | call callee args => exact call_includes h hcheck hchild

end Typing

/-! ### Checking -/

/-- Checking the node by itself, with enough fuel, yields this type and reports these mismatches. -/
def Reports (program : Program) (result : Option Ty) (id : NodeId) (ty : Ty)
    (added : Array (Located Mismatch)) : Prop :=
  ∃ fuel, check program result fuel id #[] = some (ty, added)

variable {program : Program} {result : Option Ty} {id part : NodeId} {ty : Ty}

/-- A node reports the same whenever it is checked to the end. -/
theorem Reports.check_eq (h : Reports program result id ty added) {fuel : Nat} {ty' : Ty}
    {mismatches final : Array (Located Mismatch)}
    (hcheck : check program result fuel id mismatches = some (ty', final)) :
    ty' = ty ∧ final = mismatches ++ added := by
  obtain ⟨enough, h⟩ := h
  have hself : Checking.Echoes True #[] 0 (Ty.Blurred #[]) (check program result fuel id)
      (check program result (max enough fuel) id) :=
    check_echoes_self (Nat.le_max_right enough fuel) (.inl trivial)
  obtain ⟨added', rfl, happend⟩ := hself.exists_added hcheck
  have hmore := check_append (Nat.le_max_left enough fuel) h mismatches
  rw [happend mismatches] at hmore
  exact Prod.mk.inj (Option.some.inj hmore)

theorem Reports.unique {ty' : Ty} {added' : Array (Located Mismatch)}
    (h : Reports program result id ty added) (h' : Reports program result id ty' added') :
    ty = ty' ∧ added = added' := by
  obtain ⟨fuel, h⟩ := h
  obtain ⟨hty, hadded⟩ := h'.check_eq h
  exact ⟨hty, hadded.trans Array.empty_append⟩

/-- What a node reports by itself is recorded, in one piece, whenever a node above it is checked. -/
theorem check_includes (hpart : program.Contains id part)
    (hreports : Reports program result part ty added) (fuel : Nat) :
    (check program result fuel id).Includes added := by
  -- from the part upwards, so that each rule is given what its child includes
  induction hpart using Relation.ReflTransGen.head_induction_on generalizing fuel with
  | refl => exact Checking.includes_of_appends fun _ _ _ hcheck => (hreports.check_eq hcheck).2
  | head hchild _ ih =>
    obtain ⟨node, hnode, hchild⟩ := hchild
    cases fuel with
    | zero => exact nofun
    | succ fuel =>
      rw [check_succ]
      exact Typing.rule_includes (ih fuel) (check_grows program result fuel) hnode hchild

/-- In an acyclic program every node is checked to the end. -/
theorem Program.Acyclic.exists_reports (h : program.Acyclic) (result : Option Ty) (id : NodeId) :
    ∃ ty added, Reports program result id ty added := by
  obtain ⟨fuel, hfuel⟩ := (h.eventually_endsWithin id).exists
  obtain ⟨⟨ty, added⟩, hcheck⟩ := Option.isSome_iff_exists.mp (hfuel.check_isSome result #[])
  exact ⟨ty, added, fuel, hcheck⟩

/-- **No mistake is masked.**  In an acyclic program all checks end.  What a node reports when it
is checked by itself is a segment, without gaps and in this order, of what each node reports that
it lies below. -/
theorem nothing_masked (hacyclic : program.Acyclic) (result : Option Ty) {root part : NodeId}
    (hpart : program.Contains root part) :
    ∃ ty ty' added all, Reports program result part ty added ∧
      Reports program result root ty' all ∧ added.toList <:+: all.toList := by
  obtain ⟨ty, added, hadded⟩ := hacyclic.exists_reports result part
  obtain ⟨ty', all, hall⟩ := hacyclic.exists_reports result root
  refine ⟨ty, ty', added, all, hadded, hall, ?_⟩
  obtain ⟨fuel, hcheck⟩ := hall
  obtain ⟨before, after, rfl⟩ := check_includes hpart hadded fuel _ _ _ hcheck
  exact ⟨before.toList, after.toList, by simp⟩

/-- An integer that is called, with the negation of a wrong sum and with the sum itself. -/
def wrongCallProgram : Program where
  nodes := #[.int 1, .string "one", .binary .add ⟨0⟩ ⟨1⟩, .not ⟨2⟩, .call ⟨0⟩ ⟨0, 2⟩]
  childCells := #[⟨3⟩, ⟨2⟩]

/-- The call would be rejected with any arguments, but they are checked first. -/
theorem nothing_masked_wrongCallProgram :
    wrongCallProgram.Acyclic ∧ wrongCallProgram.Contains ⟨4⟩ ⟨2⟩ ∧
    Reports wrongCallProgram none ⟨2⟩ .unknown #[⟨.operands .int .string, ⟨2⟩⟩] ∧
    ∃ all, Reports wrongCallProgram none ⟨4⟩ .unknown all ∧ all.size = 3 ∧
      [⟨.operands .int .string, ⟨2⟩⟩] <:+: all.toList := by
  have hacyclic : wrongCallProgram.Acyclic :=
    (Program.descending_of_forall (by decide)).acyclic
  have hcall : wrongCallProgram.HasChild ⟨4⟩ ⟨3⟩ := ⟨.call ⟨0⟩ ⟨0, 2⟩, rfl, by decide⟩
  have hnot : wrongCallProgram.HasChild ⟨3⟩ ⟨2⟩ := ⟨.not ⟨2⟩, rfl, by decide⟩
  have hpart : wrongCallProgram.Contains ⟨4⟩ ⟨2⟩ := (Relation.ReflTransGen.single hcall).tail hnot
  have hsum : Reports wrongCallProgram none ⟨2⟩ .unknown #[⟨.operands .int .string, ⟨2⟩⟩] :=
    ⟨2, rfl⟩
  have hroot : Reports wrongCallProgram none ⟨4⟩ .unknown #[⟨.operands .int .string, ⟨2⟩⟩,
      ⟨.operands .int .string, ⟨2⟩⟩, ⟨.notCallable .int, ⟨4⟩⟩] := ⟨4, rfl⟩
  obtain ⟨ty, ty', added, all, hadded, hall, hsegment⟩ := nothing_masked hacyclic none hpart
  obtain ⟨-, rfl⟩ := hadded.unique hsum
  obtain ⟨rfl, rfl⟩ := hall.unique hroot
  exact ⟨hacyclic, hpart, hsum, _, hroot, rfl, hsegment⟩

end Arbor
