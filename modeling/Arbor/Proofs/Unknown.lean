import Arbor.Proofs.Conflict
import Arbor.Proofs.Unmasked

/-!
# Unknown types are reported

The type `unknown` fits everywhere, so above a node of that type the checker has
nothing more to say.  This is right only if something has been said before.  Where
all types that a program writes down are known at every depth, it has been: the
type of a node is unknown only if checking the node has recorded a mismatch.

The induction needs more than that.  An element, a field or a result of a known
type has to be known again, so a type has to be known all through (`Ty.Known`),
and a rule `Warrants` such a type, or else it records something.

* `Checking.Warrants.bind` — a sequence may rely on what its first part warrants;
* `check_warrants` — checking a node warrants that its type is known all through;
* `unknown_reported` — in an acyclic program all checks end, and none yields an
  unknown type in silence.
-/

namespace Arbor

variable {α β : Type}

/-! ### Known types -/

namespace Ty

/-- No part of the type is unknown, at whatever depth. -/
def Known (ty : Ty) : Prop :=
  ¬ Within .unknown ty

variable {ty : Ty}

theorem known_iff_parts : ty.Known ↔ ty ≠ .unknown ∧ ∀ part ∈ ty.parts, part.Known := by
  constructor
  · intro h
    exact ⟨fun heq => h (heq ▸ .self), fun part hpart hin => h (.part hpart hin)⟩
  · intro h hin
    cases hin with
    | self => exact h.1 rfl
    | part hpart hin => exact h.2 _ hpart hin

theorem Known.of_mem_parts (h : ty.Known) {part : Ty} (hpart : part ∈ ty.parts) : part.Known :=
  (known_iff_parts.mp h).2 part hpart

theorem Known.isUnknown_eq_false (h : ty.Known) : ty.isUnknown = false := by
  rw [Bool.eq_false_iff, Ne, isUnknown_iff]
  exact (known_iff_parts.mp h).1

/-- What has no parts is known, unless it is the unknown type itself. -/
theorem known_of_parts_eq_nil (hne : ty ≠ .unknown) (hparts : ty.parts = []) : ty.Known :=
  known_iff_parts.mpr ⟨hne, by simp [hparts]⟩

theorem known_int : Known .int := known_of_parts_eq_nil nofun rfl

theorem known_string : Known .string := known_of_parts_eq_nil nofun rfl

theorem known_bool : Known .bool := known_of_parts_eq_nil nofun rfl

theorem known_undefined : Known .undefined := known_of_parts_eq_nil nofun rfl

theorem Known.elem {elem : Ty} {length : NodeId} (h : (Ty.array elem length).Known) : elem.Known :=
  h.of_mem_parts List.mem_cons_self

theorem Known.field {fields : Entries Ty} {name : String} (h : (Ty.record fields).Known)
    (hfield : fields.get? name = some ty) : ty.Known :=
  h.of_mem_parts (List.mem_map_of_mem (Entries.mem_of_get?_eq_some hfield))

theorem Known.result {params : Entries Ty} {result : Ty} {body : NodeId}
    (h : (Ty.function params result body).Known) : result.Known :=
  h.of_mem_parts (List.mem_append_right _ List.mem_cons_self)

end Ty

/-- The types written at the node are known at every depth. Only a variable may have an unknown
type, which stands for a type that was not resolved. The literal that yields undefined has no type
to write, and is left out. -/
def Node.WritesKnown : Node → Prop
  | .nil => False
  | .arrayLiteral elem length _ => (Ty.array elem length).Known
  | .recordLiteral fields _ => (Ty.record fields).Known
  | .var _ ty => ty = .unknown ∨ ty.Known
  | _ => True

/-! ### Verdicts -/

namespace Typing

variable {ty left right : Ty}

theorem returnType_known {result : Option Ty} (h : ty.Known) {ty' : Ty}
    (hty : returnType result ty = .ok ty') : ty'.Known := by
  have heq : ty' = ty := by
    unfold returnType at hty
    grind
  exact heq ▸ h

theorem assignmentType_known (hleft : left.Known) (hright : right.Known)
    (hty : assignmentType left right = .ok ty) : ty.Known := by
  have heq : ty = right := by
    unfold assignmentType at hty
    rw [hleft.isUnknown_eq_false, hright.isUnknown_eq_false] at hty
    grind
  exact heq ▸ hright

theorem binaryType_known {op : Operator} (hleft : left.Known) (hright : right.Known)
    (hty : binaryType op left right = .ok ty) : ty.Known := by
  obtain ⟨-, -, rfl⟩ := binaryType_eq_ok hleft.isUnknown_eq_false hright.isUnknown_eq_false hty
  split
  · exact Ty.known_bool
  · exact hleft

theorem negationType_known (h : left.Known) (hty : negationType left = .ok ty) : ty.Known := by
  obtain ⟨-, rfl⟩ := negationType_eq_ok h.isUnknown_eq_false hty
  exact Ty.known_bool

theorem elementType_known (h : left.Known) (hty : elementType left = .ok ty) : ty.Known := by
  obtain ⟨length, rfl⟩ := elementType_eq_ok h.isUnknown_eq_false hty
  exact h.elem

theorem fieldType_known {name : String} (h : left.Known) (hty : fieldType name left = .ok ty) :
    ty.Known := by
  obtain ⟨fields, rfl, hfield⟩ := fieldType_eq_ok h.isUnknown_eq_false hty
  exact h.field hfield

/-- A variable whose type was not resolved is rejected. -/
theorem variableType_known {name : String} (h : left = .unknown ∨ left.Known)
    (hty : variableType name left = .ok ty) : ty.Known := by
  obtain rfl := variableType_eq_ok hty
  rcases h with rfl | h
  · cases hty
  · exact h

end Typing

/-! ### Warranted outcomes -/

namespace Checking

variable {P : α → Prop} {Q : β → Prop} {checking : Checking α} {next : α → Checking β}

/-- Mismatches are only added, and either the outcome has the property or there are some. -/
def Warrants (checking : Checking α) (P : α → Prop) : Prop :=
  ∀ mismatches a final, checking mismatches = some (a, final) →
    ∃ added, final = mismatches ++ added ∧ (P a ∨ added ≠ #[])

theorem Warrants.grows (h : checking.Warrants P) : checking.Grows := by
  intro mismatches a final hchecking
  obtain ⟨added, hfinal, -⟩ := h _ _ _ hchecking
  exact ⟨added, hfinal⟩

theorem Grows.warrants (h : checking.Grows) : checking.Warrants fun _ => True := by
  intro mismatches a final hchecking
  obtain ⟨added, hfinal⟩ := h _ _ _ hchecking
  exact ⟨added, hfinal, .inl trivial⟩

theorem warrants_pure {a : α} (h : P a) : (pure a : Checking α).Warrants P := by
  intro mismatches b final hpure
  cases hpure
  exact ⟨#[], Array.append_empty.symm, .inl h⟩

theorem warrants_reject {P : Ty → Prop} (mismatch : Mismatch) (node : NodeId) :
    (Typing.reject mismatch node).Warrants P := by
  intro mismatches ty final hreject
  rw [reject_apply] at hreject
  cases hreject
  exact ⟨#[⟨mismatch, node⟩], rfl, .inr (by simp)⟩

/-- What comes after may rely on what was warranted.  Where it cannot, something has been recorded,
and is not taken back. -/
theorem Warrants.bind (h : checking.Warrants P) (hgrows : ∀ a, (next a).Grows)
    (hnext : ∀ a, P a → (next a).Warrants Q) : (checking >>= next).Warrants Q := by
  intro mismatches b final hboth
  obtain ⟨⟨a, middle⟩, hfirst, hrest⟩ := Option.bind_eq_some_iff.mp hboth
  obtain ⟨added, rfl, ha | hadded⟩ := h _ _ _ hfirst
  · obtain ⟨more, rfl, hb⟩ := hnext a ha _ _ _ hrest
    refine ⟨added ++ more, Array.append_assoc, hb.imp_right fun hmore hempty => ?_⟩
    exact hmore (Array.append_eq_empty_iff.mp hempty).2
  · obtain ⟨more, rfl⟩ := hgrows a _ _ _ hrest
    refine ⟨added ++ more, Array.append_assoc, .inr fun hempty => ?_⟩
    exact hadded (Array.append_eq_empty_iff.mp hempty).1

/-- What is checked first need not warrant anything. -/
theorem Grows.bind_warrants (h : checking.Grows) (hnext : ∀ a, (next a).Warrants Q) :
    (checking >>= next).Warrants Q :=
  h.warrants.bind (fun a => (hnext a).grows) fun a _ => hnext a

/-- A literal has the type that is written, unless something was recorded below it. -/
theorem Grows.unlessReported_warrants {checking : Checking Unit} (h : checking.Grows)
    {P : Ty → Prop} {ty : Ty} (hty : P ty) : (Typing.unlessReported ty checking).Warrants P := by
  intro mismatches ty' final hliteral
  rw [unlessReported_apply] at hliteral
  obtain ⟨⟨done, middle⟩, hchecking, heq⟩ := Option.map_eq_some_iff.mp hliteral
  obtain ⟨added, rfl⟩ := h _ _ _ hchecking
  cases heq
  refine ⟨added, rfl, ?_⟩
  by_cases hadded : added = #[]
  · subst hadded
    exact .inl (by rwa [Array.append_empty, if_pos rfl])
  · exact .inr hadded

end Checking

/-! ### The rules -/

namespace Typing

open Checking

variable {program : Program} {result : Option Ty} {lengthOf : NodeId → Sizing Nat}
  {check : Checker} {id : NodeId} {node : Node} {P : Ty → Prop}

theorem settle_warrants {verdict : Except Mismatch Ty} (h : ∀ ty, verdict = .ok ty → P ty) :
    (settle id verdict).Warrants P := by
  cases verdict with
  | ok ty => exact warrants_pure (h ty rfl)
  | error mismatch => exact warrants_reject mismatch id

/-- A verdict on one child. -/
theorem settle_child_warrants {child : NodeId} (h : (check child).Warrants P)
    {verdict : Ty → Except Mismatch Ty} (hverdict : ∀ t, P t → ∀ ty, verdict t = .ok ty → P ty) :
    Warrants (check child >>= fun t => settle id (verdict t)) P :=
  h.bind (fun t => settle_grows id (verdict t)) fun t ht => settle_warrants (hverdict t ht)

/-- A verdict on two children. -/
theorem settle_two_warrants {first second : NodeId} (hfirst : (check first).Warrants P)
    (hsecond : (check second).Warrants P) {verdict : Ty → Ty → Except Mismatch Ty}
    (hverdict : ∀ t t', P t → P t' → ∀ ty, verdict t t' = .ok ty → P ty) :
    Warrants (check first >>= fun t => check second >>= fun t' => settle id (verdict t t')) P :=
  hfirst.bind (fun t => hsecond.grows.bind fun t' => settle_grows id (verdict t t'))
    fun t ht => settle_child_warrants hsecond fun t' ht' => hverdict t t' ht ht'

/-- A call yields the result type of its callee; the arguments do not matter for that. -/
theorem call_warrants {callee : NodeId} {args : List NodeId}
    (hcallee : (check callee).Warrants Ty.Known) (hcheck : ∀ id, (check id).Grows) :
    (call check id callee args).Warrants Ty.Known := by
  have hargs : Grows (args.mapM check) := Grows.mapM fun arg _ => hcheck arg
  refine hcallee.bind (fun f => hargs.bind fun types => called_grows id args f types) ?_
  intro f hf
  refine hargs.bind_warrants fun types => ?_
  cases f with
  | unknown => exact absurd .self hf
  | function params result body =>
    dsimp only
    split
    · exact warrants_reject _ id
    · exact (Grows.forM fun _ _ => grows_expect _ _ _ _).bind_warrants fun _ =>
        warrants_pure hf.result
  | _ => exact warrants_reject _ id

/-- A rule warrants a known type if the checks of the children do. -/
theorem rule_warrants (hcheck : ∀ id, (check id).Grows)
    (hwrites : ∀ node, program.node? id = some node → node.WritesKnown)
    (hchildren : ∀ child, program.HasChild id child → (check child).Warrants Ty.Known) :
    (rule program result lengthOf check id).Warrants Ty.Known := by
  unfold rule
  cases hnode : program.node? id with
  | none => exact warrants_reject _ id
  | some node =>
    have hwritten := hwrites node hnode
    have hchild : ∀ child ∈ node.children program, (check child).Warrants Ty.Known :=
      fun child hmem => hchildren child ⟨node, hnode, hmem⟩
    cases node with
    | int n => exact warrants_pure Ty.known_int
    | string s => exact warrants_pure Ty.known_string
    | bool b => exact warrants_pure Ty.known_bool
    | nil => exact hwritten.elim
    | arrayLiteral elem length elements =>
      have helements := Grows.forM fun element (_ : element ∈ program.children elements) =>
        expect_grows hcheck element elem (.element · elem) element
      exact (helements.bind fun _ => sized_grows id length _ _).unlessReported_warrants hwritten
    | recordLiteral fields inits =>
      have hinits := Grows.forM fun init (_ : init ∈ program.fieldInits inits) =>
        (hcheck init.value).bind fun ty => initializes_grows id fields init ty
      exact hinits.unlessReported_warrants hwritten
    | block body =>
      exact (Grows.forM fun statement _ => discard_grows hcheck statement).bind_warrants fun _ =>
        warrants_pure Ty.known_undefined
    | ret value =>
      exact settle_child_warrants (hchild value List.mem_cons_self) fun t ht ty =>
        returnType_known ht
    | cond init test thenBranch elseBranch =>
      exact (optionally_grows hcheck init).bind_warrants fun _ =>
        (hcheck test).bind_warrants fun ty =>
          (grows_expect ty .bool (.testNotBool ty) test).bind_warrants fun _ =>
            (discard_grows hcheck thenBranch).bind_warrants fun _ =>
              (optionally_grows hcheck elseBranch).bind_warrants fun _ =>
                warrants_pure Ty.known_undefined
    | assign target value declares =>
      exact settle_two_warrants (hchild value (by simp [Node.children]))
        (hchild target (by simp [Node.children])) fun t t' ht ht' ty => assignmentType_known ht ht'
    | binary op left right =>
      exact settle_two_warrants (hchild left (by simp [Node.children]))
        (hchild right (by simp [Node.children])) fun t t' ht ht' ty => binaryType_known ht ht'
    | not operand =>
      exact settle_child_warrants (hchild operand List.mem_cons_self) fun t ht ty =>
        negationType_known ht
    | var name ty => exact settle_warrants fun ty' => variableType_known hwritten
    | subscript base index =>
      exact (hcheck index).bind_warrants fun ty =>
        (grows_expect ty .int (.indexNotInt ty) index).bind_warrants fun _ =>
          settle_child_warrants (hchild base List.mem_cons_self) fun t ht ty => elementType_known ht
    | select base name =>
      exact settle_child_warrants (hchild base List.mem_cons_self) fun t ht ty => fieldType_known ht
    | call callee args => exact call_warrants (hchild callee List.mem_cons_self) hcheck

end Typing

/-! ### Checking -/

open Filter

variable {program : Program}

/-- Checking a node yields a type that is known at every depth, or records a mismatch. -/
theorem check_warrants (result : Option Ty) {root : NodeId}
    (hwrites : ∀ id node, program.Contains root id → program.node? id = some node →
      node.WritesKnown) (fuel : Nat) :
    (check program result fuel root).Warrants Ty.Known := by
  induction fuel generalizing root with
  | zero => exact nofun
  | succ fuel ih =>
    rw [check_succ]
    apply Typing.rule_warrants (check_grows program result fuel)
    · exact fun node hnode => hwrites root node .refl hnode
    · exact fun child hchild => ih fun id node hpart => hwrites id node (hpart.head hchild)

/-- **No type is unknown in silence.**  Take an acyclic program and a node such that, from there
on, no literal yields undefined and all types are written down known at every depth, but for
variables whose type is unknown altogether.  Then the check of each node below ends, whatever has
been recorded before, and if the type that it yields is unknown, then it has recorded something. -/
theorem unknown_reported {program : Program} (hacyclic : program.Acyclic) (result : Option Ty)
    {root part : NodeId}
    (hwrites : ∀ id node, program.Contains root id → program.node? id = some node →
      node.WritesKnown)
    (hpart : program.Contains root part) (mismatches : Array (Located Mismatch)) :
    ∃ ty added,
      (∀ᶠ fuel in atTop,
        check program result fuel part mismatches = some (ty, mismatches ++ added)) ∧
      (ty = .unknown → added ≠ #[]) := by
  obtain ⟨ty, added, fuel, hcheck⟩ := hacyclic.exists_reports result part
  refine ⟨ty, added, ?_, ?_⟩
  · filter_upwards [eventually_ge_atTop fuel] with more hmore
    exact check_append hmore hcheck mismatches
  · rintro rfl
    have hwarrants := check_warrants result (fun id node hid => hwrites id node (hpart.trans hid))
      fuel
    obtain ⟨added', heq, hknown | hadded⟩ := hwarrants _ _ _ hcheck
    · exact absurd .self hknown
    · rw [heq, Array.empty_append]
      exact hadded

/-- A list whose only element is the negation of a variable without a type; it is subscripted with
a sum of an integer and a string. -/
def unresolvedProgram : Program where
  nodes := #[.int 1, .string "one", .var "x" .unknown, .not ⟨2⟩, .arrayLiteral .bool ⟨0⟩ ⟨0, 1⟩,
    .binary .add ⟨0⟩ ⟨1⟩, .subscript ⟨4⟩ ⟨5⟩]
  childCells := #[⟨3⟩]

/-- The unknown type of the variable makes the negation, the list and the element unknown. -/
theorem unknown_reported_unresolvedProgram :
    check unresolvedProgram none 5 ⟨6⟩ #[] = some (.unknown,
      #[⟨.operands .int .string, ⟨5⟩⟩, ⟨.untypedVariable "x", ⟨2⟩⟩]) ∧
    ∃ added, (∀ᶠ fuel in atTop,
      check unresolvedProgram none fuel ⟨6⟩ #[] = some (.unknown, #[] ++ added)) ∧
      added ≠ #[] := by
  have hacyclic : unresolvedProgram.Acyclic := (Program.descending_of_forall (by decide)).acyclic
  have hcheck : check unresolvedProgram none 5 ⟨6⟩ #[] = some (.unknown,
      #[⟨.operands .int .string, ⟨5⟩⟩, ⟨.untypedVariable "x", ⟨2⟩⟩]) := rfl
  have hwrites : ∀ id node, unresolvedProgram.node? id = some node → node.WritesKnown := by
    intro id node hnode
    have hmem := Array.mem_of_getElem? hnode
    simp only [unresolvedProgram, List.mem_toArray, List.mem_cons, List.not_mem_nil, or_false]
      at hmem
    rcases hmem with rfl | rfl | rfl | rfl | rfl | rfl | rfl
    · trivial
    · trivial
    · exact .inl rfl
    · trivial
    · exact Ty.known_iff_parts.mpr ⟨nofun, List.forall_mem_singleton.mpr Ty.known_bool⟩
    · trivial
    · trivial
  obtain ⟨ty, added, hends, hreported⟩ := unknown_reported hacyclic none
    (fun id node _ hnode => hwrites id node hnode) (.refl : unresolvedProgram.Contains ⟨6⟩ ⟨6⟩) #[]
  obtain ⟨fuel, hfuel, heq⟩ := ((eventually_ge_atTop 5).and hends).exists
  have hmore := check_append hfuel hcheck #[]
  obtain rfl := congrArg Prod.fst (Option.some.inj (heq.symm.trans hmore))
  exact ⟨hcheck, added, hends, hreported rfl⟩

end Arbor
