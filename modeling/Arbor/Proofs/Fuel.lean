import Arbor.Typing
import Mathlib.Data.Set.Finite.List
import Mathlib.Order.Filter.AtTopBot.Basic
import Mathlib.Order.Filter.Finite

/-!
# More fuel

Fuel only bounds the depth of the recursion, so an outcome that some fuel
reaches is reached by all greater fuel as well, and there is at most one.  What
a node does can therefore be said without naming the fuel (`Evaluates`,
`HasLength`, `HasDefault`, `LacksDefault`).

One run is `Below` another if it yields nothing that the other does not.  Every
rule of the evaluator keeps this order, so the evaluator does, by induction on
the fuel.

* `eval_below` — evaluation with less fuel is below evaluation with more;
* `Evaluates.unique` — a node has at most one outcome;
* `evaluates_iff_eventually` — an outcome is reached with all but a few amounts
  of fuel, so several nodes can be given enough of it at once;
* `evaluates_iff_rule` — a node does what its rule does with enough fuel below;
* `evaluates_bind_iff` — it goes on from the outcome of a node that is evaluated first;
* `evaluates_literal` — literals of integers, strings, booleans and undefined;
* `HasLength.unique`, `HasDefault.unique` — lengths and defaults are unique too.
-/

namespace Arbor

/-! ### The order -/

section Below

variable {α β : Type}

/-- Whatever `run` yields, `more` yields as well. -/
def Run.Below (run more : Run α) : Prop :=
  ∀ state reached, run state = some reached → more state = some reached

/-- Whatever the first computation answers, the second answers as well. -/
def Sizing.Below (computed more : Sizing α) : Prop :=
  ∀ outcome, computed.run = some outcome → more.run = some outcome

/-- The order of runs, at every frame and node. -/
def Evaluator.Below (ev more : Evaluator) : Prop :=
  ∀ frame id, Run.Below (ev frame id) (more frame id)

namespace Run.Below

theorem refl (run : Run α) : Below run run := fun _ _ h => h

theorem outOfFuel (more : Run α) : Below Run.outOfFuel more := by
  intro state reached h
  cases h

theorem bind {run more : Run α} {next next' : α → Run β} (h : Below run more)
    (hnext : ∀ a, Below (next a) (next' a)) : Below (run >>= next) (more >>= next') := by
  intro state out hboth
  obtain ⟨b, final⟩ := out
  obtain ⟨a, middle, hrun, hrest⟩ := bind_eq_some_iff.mp hboth
  exact bind_eq_some_iff.mpr ⟨a, middle, h _ _ hrun, hnext a _ _ hrest⟩

theorem map {run more : Run α} (h : Below run more) (change : α → β) :
    Below (change <$> run) (change <$> more) := by
  rw [map_eq_pure_bind, map_eq_pure_bind]
  exact h.bind fun a => refl _

theorem mapM {run more : α → Run β} (h : ∀ a, Below (run a) (more a)) (causes : List α) :
    Below (causes.mapM run) (causes.mapM more) := by
  induction causes with
  | nil => exact refl _
  | cons a rest ih =>
    rw [List.mapM_cons, List.mapM_cons]
    exact (h a).bind fun b => ih.bind fun bs => refl _

theorem sizing {computed more : Sizing α} (h : Sizing.Below computed more) :
    Below (Run.sizing computed) (Run.sizing more) := by
  intro state reached hrun
  obtain ⟨outcome, houtcome, rfl⟩ := Option.map_eq_some_iff.mp hrun
  exact Option.map_eq_some_iff.mpr ⟨outcome, h _ houtcome, rfl⟩

end Run.Below

namespace Sizing.Below

theorem refl (computed : Sizing α) : Below computed computed := fun _ h => h

theorem bind {computed more : Sizing α} {next next' : α → Sizing β} (h : Below computed more)
    (hnext : ∀ a, Below (next a) (next' a)) : Below (computed >>= next) (more >>= next') := by
  intro outcome hboth
  rw [ExceptT.run_bind] at hboth ⊢
  obtain ⟨first, hfirst, hrest⟩ := Option.bind_eq_some_iff.mp hboth
  refine Option.bind_eq_some_iff.mpr ⟨first, h _ hfirst, ?_⟩
  rcases first with cause | a
  · exact hrest
  · exact hnext a _ hrest

end Sizing.Below

end Below

/-! ### Lengths and defaults -/

section Sizing

variable {lengthOf more : NodeId → Sizing Nat}

theorem defaultValue_below (h : ∀ length, Sizing.Below (lengthOf length) (more length)) (ty : Ty) :
    Sizing.Below (defaultValue lengthOf ty) (defaultValue more ty) := by
  induction ty using Ty.induct with
  | int => exact .refl _
  | string => exact .refl _
  | bool => exact .refl _
  | undefined => exact .refl _
  | unknown => exact .refl _
  | function => exact .refl _
  | array elem length ih =>
    unfold defaultValue
    apply (h length).bind
    intro n
    by_cases hn : n = 0
    · rw [if_pos hn, if_pos hn]
      exact .refl _
    · rw [if_neg hn, if_neg hn]
      exact ih.bind fun zero => .refl _
  | record fields ih =>
    have hfields : Sizing.Below (defaultFields lengthOf fields) (defaultFields more fields) := by
      induction fields with
      | nil => exact .refl _
      | cons field rest ihrest =>
        obtain ⟨hhead, hrest⟩ := List.forall_mem_cons.mp ih
        unfold defaultFields
        exact hhead.bind fun zero => (ihrest hrest).bind fun values => .refl _
    unfold defaultValue
    exact hfields.bind fun values => .refl _

theorem defaultItems_below (h : ∀ length, Sizing.Below (lengthOf length) (more length))
    (elem : Ty) (n : Nat) :
    Sizing.Below (defaultItems lengthOf elem n) (defaultItems more elem n) := by
  unfold defaultItems
  split
  · exact .refl _
  · exact (defaultValue_below h elem).bind fun zero => .refl _

end Sizing

theorem staticLength_below {ev more : Evaluator} (h : ev.Below more) (length : NodeId) :
    Sizing.Below (staticLength ev length) (staticLength more length) := by
  intro outcome hlength
  obtain ⟨reached, hreached, rfl⟩ := Option.map_eq_some_iff.mp hlength
  exact Option.map_eq_some_iff.mpr ⟨reached, h _ _ _ _ hreached, rfl⟩

/-! ### The rules -/

namespace Eval

variable {program : Program} {ev more : Evaluator} (h : ev.Below more)
include h

theorem arrayLiteral_below (frame : Frame) (id : NodeId) (elem : Ty) (length : NodeId)
    (elements : List NodeId) :
    Run.Below (arrayLiteral ev frame id elem length elements)
      (arrayLiteral more frame id elem length elements) := by
  apply (Run.Below.sizing (staticLength_below h length)).bind
  intro outcome
  rcases outcome with cause | n
  · exact .refl _
  · dsimp only
    split
    · exact (Run.Below.sizing (defaultItems_below (staticLength_below h) elem n)).bind
        fun items => .refl _
    · split
      · exact .refl _
      · exact (Run.Below.mapM (fun element => h frame element) elements).bind fun items => .refl _

theorem literalField_below (frame : Frame) (id : NodeId) (inits : List FieldInit) (name : String)
    (ty : Ty) :
    Run.Below (literalField ev frame id inits name ty)
      (literalField more frame id inits name ty) := by
  unfold literalField
  split
  · exact h frame _
  · exact (Run.Below.sizing (defaultValue_below (staticLength_below h) ty)).bind
      fun outcome => .refl _

theorem recordLiteral_below (frame : Frame) (id : NodeId) (fields : Entries Ty)
    (inits : List FieldInit) :
    Run.Below (recordLiteral ev frame id fields inits)
      (recordLiteral more frame id fields inits) := by
  have hfield : ∀ field : String × Ty, Run.Below
      (do
        let value ← literalField ev frame id inits field.1 field.2
        pure (field.1, value))
      (do
        let value ← literalField more frame id inits field.1 field.2
        pure (field.1, value)) := by
    intro field
    apply Run.Below.bind (literalField_below h frame id inits field.1 field.2)
    exact fun _ => .refl _
  unfold recordLiteral
  apply Run.Below.bind (Run.Below.mapM hfield fields)
  exact fun _ => .refl _

theorem sequence_below (frame : Frame) (body : List NodeId) :
    Run.Below (sequence ev frame body) (sequence more frame body) := by
  induction body with
  | nil => exact .refl _
  | cons statement rest ih =>
    apply (h frame statement).bind
    intro m
    split
    · exact .refl _
    · exact ih

theorem optionally_below (frame : Frame) (statement : Option NodeId) :
    Run.Below (optionally ev frame statement) (optionally more frame statement) := by
  rcases statement with _ | statement
  · exact .refl _
  · exact (h frame statement).map _

theorem choose_below (frame : Frame) (test thenBranch : NodeId) (elseBranch : Option NodeId) :
    Run.Below (choose ev frame test thenBranch elseBranch)
      (choose more frame test thenBranch elseBranch) := by
  apply (h frame test).bind
  intro outcome
  rcases outcome.value.bool? with _ | _ | _
  · exact .refl _
  · rcases elseBranch with _ | elseBranch
    · exact .refl _
    · exact h frame elseBranch
  · exact h frame thenBranch

theorem conditional_below (frame : Frame) (init : Option NodeId) (test thenBranch : NodeId)
    (elseBranch : Option NodeId) :
    Run.Below (conditional ev frame init test thenBranch elseBranch)
      (conditional more frame init test thenBranch elseBranch) :=
  (optionally_below h frame init).bind fun _ => choose_below h frame test thenBranch elseBranch

theorem resolve_below (frame : Frame) {fuel fuel' : Nat} (hfuel : fuel ≤ fuel') (id : NodeId) :
    Run.Below (resolve program ev frame fuel id).run (resolve program more frame fuel' id).run := by
  induction fuel generalizing fuel' id with
  | zero =>
    rw [run_resolve_zero]
    exact .outOfFuel _
  | succ fuel ih =>
    obtain ⟨fuel', rfl⟩ : ∃ n, fuel' = n + 1 := ⟨fuel' - 1, by omega⟩
    rw [run_resolve_succ, run_resolve_succ]
    have hbase : ∀ base, Run.Below (resolve program ev frame fuel base).run
        (resolve program more frame fuel' base).run := ih (by omega)
    rcases program.node? id with _ | node
    · exact .refl _
    · cases node with
      | subscript base index =>
        apply (hbase base).bind
        intro outcome
        rcases outcome with fault | place
        · exact .refl _
        · exact (h frame index).bind fun m => .refl _
      | select base name => exact (hbase base).bind fun outcome => .refl _
      | _ => exact .refl _

theorem assign_below (frame : Frame) {fuel fuel' : Nat} (hfuel : fuel ≤ fuel')
    (id target value : NodeId) (declares : Bool) :
    Run.Below (assign program ev fuel frame id target value declares)
      (assign program more fuel' frame id target value declares) := by
  have hplace : Run.Below (assignPlace program ev fuel frame target value)
      (assignPlace program more fuel' frame target value) :=
    (resolve_below h frame hfuel target).bind fun _ => (h frame value).bind fun _ => .refl _
  unfold assign
  rcases program.node? target with _ | node
  · exact .refl _
  · cases node with
    | var name ty => exact (h frame value).bind fun _ => .refl _
    | subscript base index => exact hplace.bind fun _ => .refl _
    | select base name => exact hplace.bind fun _ => .refl _
    | _ => exact .refl _

theorem subscript_below (frame : Frame) (id base index : NodeId) :
    Run.Below (subscript ev frame id base index) (subscript more frame id base index) :=
  (h frame base).bind fun _ => (h frame index).bind fun _ => .refl _

theorem select_below (frame : Frame) (id base : NodeId) (name : String) :
    Run.Below (select ev frame id base name) (select more frame id base name) :=
  (h frame base).bind fun _ => .refl _

theorem invoke_below (frame : Frame) (id : NodeId) (signature : Signature) (args : List Marked) :
    Run.Below (invoke ev frame id signature args) (invoke more frame id signature args) := by
  unfold invoke
  split
  · exact .refl _
  · refine Run.Below.bind ?_ fun result => .refl _
    exact (Run.Below.refl _).bind fun caller => (Run.Below.refl _).bind fun _ =>
      (h frame.callee signature.body).bind fun result => .refl _

theorem call_below (frame : Frame) (id callee : NodeId) (args : List NodeId) :
    Run.Below (call ev frame id callee args) (call more frame id callee args) := by
  apply (h frame callee).bind
  intro callee
  split
  · exact .refl _
  · split
    · exact .refl _
    · split
      · exact .refl _
      · exact (Run.Below.mapM (fun arg => h frame arg) args).bind fun values =>
          invoke_below h frame id _ values

theorem rule_below {fuel fuel' : Nat} (hfuel : fuel ≤ fuel') :
    (rule program ev fuel).Below (rule program more fuel') := by
  intro frame id
  unfold rule
  rcases program.node? id with _ | node
  · exact .refl _
  · cases node with
    | arrayLiteral elem length elements => exact arrayLiteral_below h frame id elem length _
    | recordLiteral fields inits => exact recordLiteral_below h frame id fields _
    | block body => exact sequence_below h frame.sequence _
    | ret value => exact (h frame value).bind fun m => .refl _
    | cond init test thenBranch elseBranch =>
      exact conditional_below h frame init test thenBranch elseBranch
    | assign target value declares => exact assign_below h frame hfuel id target value declares
    | binary op left right =>
      exact (h frame left).bind fun _ => (h frame right).bind fun _ => .refl _
    | not operand => exact (h frame operand).bind fun _ => .refl _
    | subscript base index => exact subscript_below h frame id base index
    | select base name => exact select_below h frame id base name
    | call callee args => exact call_below h frame id callee _
    | _ => exact .refl _

end Eval

/-! ### Evaluation -/

open Filter

variable {program : Program} {frame : Frame} {id : NodeId} {state : State}

/-- What less fuel reaches, more fuel reaches too. -/
theorem eval_below (program : Program) {fuel fuel' : Nat} (hfuel : fuel ≤ fuel') :
    (eval program fuel).Below (eval program fuel') := by
  induction fuel generalizing fuel' with
  | zero => exact fun frame id => .outOfFuel _
  | succ fuel ih =>
    obtain ⟨fuel', rfl⟩ : ∃ n, fuel' = n + 1 := ⟨fuel' - 1, by omega⟩
    intro frame id
    rw [eval_succ, eval_succ]
    exact Eval.rule_below (ih (by omega)) (by omega) frame id

theorem eval_mono {fuel fuel' : Nat} {reached : Marked × State} (hfuel : fuel ≤ fuel')
    (h : eval program fuel frame id state = some reached) :
    eval program fuel' frame id state = some reached :=
  eval_below program hfuel frame id state reached h

/-- What holds with enough fuel of each member of a list holds with enough fuel of all. -/
theorem eventually_forall_mem {α : Type} {P : Nat → α → Prop} (members : List α)
    (h : ∀ a ∈ members, ∀ᶠ fuel in atTop, P fuel a) :
    ∀ᶠ fuel in atTop, ∀ a ∈ members, P fuel a :=
  (eventually_all_finite (List.finite_toSet members)).mpr h

/-- With enough fuel, the node yields `m` and leaves `final`. -/
def Evaluates (program : Program) (frame : Frame) (id : NodeId) (state : State) (m : Marked)
    (final : State) : Prop :=
  ∃ fuel, eval program fuel frame id state = some (m, final)

/-- A node has at most one outcome. -/
theorem Evaluates.unique {m m' : Marked} {final final' : State}
    (h : Evaluates program frame id state m final)
    (h' : Evaluates program frame id state m' final') : m = m' ∧ final = final' := by
  obtain ⟨fuel, hfuel⟩ := h
  obtain ⟨fuel', hfuel'⟩ := h'
  have heq := (eval_mono (Nat.le_max_left fuel fuel') hfuel).symm.trans
    (eval_mono (Nat.le_max_right fuel fuel') hfuel')
  exact Prod.mk.inj (Option.some.inj heq)

/-- What a node yields with enough fuel, it yields with all greater fuel. -/
theorem evaluates_iff_eventually {m : Marked} {final : State} :
    Evaluates program frame id state m final ↔
      ∀ᶠ fuel in atTop, eval program fuel frame id state = some (m, final) := by
  rw [eventually_atTop]
  constructor
  · intro h
    obtain ⟨fuel, h⟩ := h
    exact ⟨fuel, fun fuel' hfuel => eval_mono hfuel h⟩
  · intro h
    obtain ⟨fuel, h⟩ := h
    exact ⟨fuel, h fuel le_rfl⟩

/-- A node yields what its rule yields when everything below has enough fuel. -/
theorem evaluates_iff_rule {m : Marked} {final : State} :
    Evaluates program frame id state m final ↔ ∀ᶠ fuel in atTop,
      Eval.rule program (eval program fuel) fuel frame id state = some (m, final) := by
  rw [evaluates_iff_eventually]
  conv_lhs => rw [← map_add_atTop_eq_nat 1, eventually_map]
  simp only [eval_succ]

/-- A node whose rule first evaluates one node below goes on from the outcome of that node. -/
theorem evaluates_bind_iff {inner : Frame} {child : NodeId} {next : Marked → Run Marked}
    {m : Marked} {final : State}
    (hrule : ∀ᶠ fuel in atTop, Eval.rule program (eval program fuel) fuel frame id =
      eval program fuel inner child >>= next) :
    Evaluates program frame id state m final ↔
      ∃ v middle, Evaluates program inner child state v middle ∧
        next v middle = some (m, final) := by
  rw [evaluates_iff_rule]
  constructor
  · intro h
    obtain ⟨fuel, h, hrule⟩ := (h.and hrule).exists
    rw [hrule] at h
    obtain ⟨v, middle, hchild, hnext⟩ := Run.bind_eq_some_iff.mp h
    exact ⟨v, middle, ⟨fuel, hchild⟩, hnext⟩
  · intro h
    obtain ⟨v, middle, hchild, hnext⟩ := h
    filter_upwards [hrule, evaluates_iff_eventually.mp hchild] with fuel hrule hchild
    rw [hrule]
    exact Run.bind_eq_some_iff.mpr ⟨v, middle, hchild, hnext⟩

/-- The value of a literal other than of arrays and records. -/
def Node.literal? : Node → Option Marked
  | .int n => some (.plain (.int n))
  | .string s => some (.plain (.string s))
  | .bool b => some (.plain (.bool b))
  | .nil => some .undefined
  | _ => none

/-- A literal yields its value and leaves the state alone. -/
theorem evaluates_literal {node : Node} {m : Marked} (hnode : program.node? id = some node)
    (hliteral : node.literal? = some m) : Evaluates program frame id state m state := by
  refine ⟨1, ?_⟩
  rw [eval_succ, Eval.rule, hnode]
  cases node <;> cases hliteral <;> rfl

/-- With enough fuel, the length node computes `n` with nothing in scope. -/
def HasLength (program : Program) (length : NodeId) (n : Nat) : Prop :=
  ∃ fuel, (staticLength (eval program fuel) length).run = some (.ok n)

/-- With enough fuel, the type has the default value `zero`. -/
def HasDefault (program : Program) (ty : Ty) (zero : Marked) : Prop :=
  ∃ fuel, (defaultValue (staticLength (eval program fuel)) ty).run = some (.ok zero)

/-- With enough fuel, computing the default value fails for this cause. -/
def LacksDefault (program : Program) (ty : Ty) (cause : DefaultFault) : Prop :=
  ∃ fuel, (defaultValue (staticLength (eval program fuel)) ty).run = some (.error cause)

/-- What is computed for a default value is computed with all greater fuel as well. -/
theorem defaultValue_eventually {ty : Ty} {outcome : Except DefaultFault Marked}
    (h : ∃ fuel, (defaultValue (staticLength (eval program fuel)) ty).run = some outcome) :
    ∀ᶠ fuel in atTop, (defaultValue (staticLength (eval program fuel)) ty).run = some outcome := by
  obtain ⟨fuel, h⟩ := h
  filter_upwards [eventually_ge_atTop fuel] with fuel' hfuel
  exact defaultValue_below (staticLength_below (eval_below program hfuel)) _ _ h

/-- With enough fuel, a length is known. -/
theorem HasLength.eventually {length : NodeId} {n : Nat} (h : HasLength program length n) :
    ∀ᶠ fuel in atTop, (staticLength (eval program fuel) length).run = some (.ok n) := by
  obtain ⟨fuel, h⟩ := h
  filter_upwards [eventually_ge_atTop fuel] with fuel' hfuel
  exact staticLength_below (eval_below program hfuel) _ _ h

/-- With enough fuel, a default value is known. -/
theorem HasDefault.eventually {ty : Ty} {zero : Marked} (h : HasDefault program ty zero) :
    ∀ᶠ fuel in atTop, (defaultValue (staticLength (eval program fuel)) ty).run =
      some (.ok zero) :=
  defaultValue_eventually h

/-- A default value that is lacking does not exist. -/
theorem LacksDefault.not_hasDefault {ty : Ty} {cause : DefaultFault} {zero : Marked}
    (h : LacksDefault program ty cause) : ¬ HasDefault program ty zero := by
  intro hzero
  obtain ⟨fuel, hfuel, hfuel'⟩ := ((defaultValue_eventually h).and hzero.eventually).exists
  cases hfuel.symm.trans hfuel'

theorem HasLength.unique {length : NodeId} {n n' : Nat} (h : HasLength program length n)
    (h' : HasLength program length n') : n = n' := by
  obtain ⟨fuel, hfuel, hfuel'⟩ := (h.eventually.and h'.eventually).exists
  exact Except.ok.inj (Option.some.inj (hfuel.symm.trans hfuel'))

theorem HasDefault.unique {ty : Ty} {zero zero' : Marked} (h : HasDefault program ty zero)
    (h' : HasDefault program ty zero') : zero = zero' := by
  obtain ⟨fuel, hfuel, hfuel'⟩ := (h.eventually.and h'.eventually).exists
  exact Except.ok.inj (Option.some.inj (hfuel.symm.trans hfuel'))

end Arbor
