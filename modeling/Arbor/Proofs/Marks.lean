import Arbor.Proofs.Effects

/-!
# Where control marks come from and where they stay

Two marks steer evaluation: a returned value ends the statement sequence it
stands in, and an unresolved one tells an assignment that a variable was bound
nowhere.  Both have to be gone before a value is stored.  Being clean is a
hereditary property, so clean variables stay clean, at every depth; what is left
to say is which nodes yield a marked value at all.

A mark has one of few origins.  A value is returned by a return, or handed up by
a block from one of its statements or by a conditional from its branch
(`ReturnOrigin`).  A value is unresolved if it stands for an unbound variable, or
is handed up by a conditional (`MissOrigin`).  Every other node, and so every
operand, argument, element, test and index, ends the way of a mark.

* `hereditary_isClean` — being clean is handed on;
* `eval_marks` — the marks that a node yields, over clean variables.
-/

namespace Arbor

/-- Being clean is handed on by evaluation. -/
theorem hereditary_isClean (program : Program) :
    Hereditary program fun m => m.isClean = true where
  undefined := rfl
  scalar _ _ := rfl
  list _ := rfl
  record _ := rfl
  cleaned _ := rfl
  setItem _ _ _ h := h
  setField _ _ _ h := h

/-! ### Origins -/

/-- The statements run from `state` to `final`, and none of them returns. -/
inductive RunsThrough (program : Program) (frame : Frame) : List NodeId → State → State → Prop where
  | nil {state : State} : RunsThrough program frame [] state state
  | cons {statement : NodeId} {rest : List NodeId} {state middle final : State} {m : Marked}
    (hstatement : Evaluates program frame statement state m middle) (hm : m.returned = false)
    (hrest : RunsThrough program frame rest middle final) :
    RunsThrough program frame (statement :: rest) state final

/-- The optional statement, if there is one, runs from `state` to `started`. -/
def Starts (program : Program) (frame : Frame) (init : Option NodeId) (state started : State) :
    Prop :=
  match init with
  | some statement => ∃ m, Evaluates program frame statement state m started
  | none => started = state

/-- A conditional that starts in `state` executes this branch, from `tested` on. -/
inductive TakesBranch (program : Program) (frame : Frame) (init : Option NodeId)
    (test thenBranch : NodeId) (elseBranch : Option NodeId) (state : State) :
    NodeId → State → Prop where
  | yes {started tested : State} {outcome : Marked}
    (hinit : Starts program frame init state started)
    (htest : Evaluates program frame test started outcome tested)
    (houtcome : outcome.value.bool? = some true) :
    TakesBranch program frame init test thenBranch elseBranch state thenBranch tested
  | no {started tested : State} {outcome : Marked} {branch : NodeId}
    (hinit : Starts program frame init state started)
    (htest : Evaluates program frame test started outcome tested)
    (houtcome : outcome.value.bool? = some false) (hbranch : elseBranch = some branch) :
    TakesBranch program frame init test thenBranch elseBranch state branch tested

/-- How a node comes to yield the returned value `m`. -/
inductive ReturnOrigin (program : Program) (frame : Frame) (state : State) (m : Marked)
    (final : State) : Node → Prop where
  | ret {value} : ReturnOrigin program frame state m final (.ret value)
  /-- Some statement of the block is executed and yields `m`. -/
  | block {body before statement after middle}
    (hbody : program.children body = before ++ statement :: after)
    (hbefore : RunsThrough program frame.sequence before state middle)
    (hstatement : Evaluates program frame.sequence statement middle m final) :
    ReturnOrigin program frame state m final (.block body)
  /-- The branch that is executed yields `m`. -/
  | branch {init test thenBranch elseBranch taken tested}
    (htaken : TakesBranch program frame init test thenBranch elseBranch state taken tested)
    (hbranch : Evaluates program frame taken tested m final) :
    ReturnOrigin program frame state m final (.cond init test thenBranch elseBranch)

/-- How a node comes to yield the unresolved value `m`. -/
inductive MissOrigin (program : Program) (frame : Frame) (state : State) (m : Marked)
    (final : State) : Node → Prop where
  | var {name ty} (hlocal : state.locals.get? name = none)
    (hglobal : state.globals.get? name = none) :
    MissOrigin program frame state m final (.var name ty)
  /-- The branch that is executed yields `m`. -/
  | branch {init test thenBranch elseBranch taken tested}
    (htaken : TakesBranch program frame init test thenBranch elseBranch state taken tested)
    (hbranch : Evaluates program frame taken tested m final) :
    MissOrigin program frame state m final (.cond init test thenBranch elseBranch)

variable {program : Program} {frame : Frame} {state : State}

/-- The marks of `m` are those that a node may yield. -/
structure MarksExplained (program : Program) (frame : Frame) (id : NodeId) (state : State)
    (m : Marked) (final : State) : Prop where
  not_both : ¬ (m.returned = true ∧ m.unresolved = true)
  returned : m.returned = true →
    ∃ node, program.node? id = some node ∧ ReturnOrigin program frame state m final node
  unresolved : m.unresolved = true → m.value = .undefined ∧
    ∃ node, program.node? id = some node ∧ MissOrigin program frame state m final node

theorem MarksExplained.of_isClean {id : NodeId} {m : Marked} {final : State}
    (h : m.isClean = true) : MarksExplained program frame id state m final := by
  simp only [Marked.isClean, Bool.and_eq_true, Bool.not_eq_true'] at h
  exact ⟨by simp [h.1], by simp [h.1], by simp [h.2]⟩

/-! ### The nodes that end the way of a mark -/

/-- What comes last decides on the outcome, whatever comes before it. -/
theorem Run.ensures_of_next {α β : Type} {run : Run α} {next : α → Run β}
    {post : β → State → Prop} (h : ∀ a middle, (next a).Ensures middle post) :
    (run >>= next).Ensures state post :=
  Run.ensures_bind.mpr fun a middle _ => h a middle

namespace Eval

theorem fail_isClean (fault : Fault) (id : NodeId) :
    (Run.fail fault id).Ensures state fun m _ => m.isClean = true :=
  Run.ensures_fail.mpr rfl

theorem settle_isClean (id : NodeId) {outcome : Except Fault Marked}
    (h : ∀ m, outcome = .ok m → m.isClean = true) :
    (settle id outcome).Ensures state fun m _ => m.isClean = true := by
  rcases outcome with fault | m
  · exact fail_isClean fault id
  · exact Run.ensures_pure.mpr (h m rfl)

theorem isClean_of_computed (computed : Except OperatorError Value) (m : Marked)
    (h : (computed.map Marked.plain).mapError Fault.operator = .ok m) : m.isClean = true := by
  rcases computed with error | v
  · cases h
  · cases h
    rfl

theorem arrayLiteral_isClean (ev : Evaluator) (frame : Frame) (id : NodeId) (elem : Ty)
    (length : NodeId) (elements : List NodeId) :
    (arrayLiteral ev frame id elem length elements).Ensures state fun m _ => m.isClean = true := by
  unfold arrayLiteral
  refine Run.ensures_of_next fun outcome middle => ?_
  rcases outcome with cause | n
  · exact fail_isClean _ id
  · dsimp only
    split
    · refine Run.ensures_of_next fun outcome middle => ?_
      rcases outcome with cause | items
      · exact fail_isClean _ id
      · exact Run.ensures_pure.mpr rfl
    · split
      · exact fail_isClean _ id
      · exact Run.ensures_of_next fun _ _ => Run.ensures_pure.mpr rfl

theorem assign_undefined (program : Program) (ev : Evaluator) (fuel : Nat) (frame : Frame)
    (id target value : NodeId) (declares : Bool) :
    (assign program ev fuel frame id target value declares).Ensures state
      fun m _ => m = .undefined := by
  have hundefined : ∀ (run : Run Unit) (state : State),
      (run >>= fun _ => pure Marked.undefined).Ensures state fun m _ => m = .undefined :=
    fun run state => Run.ensures_of_next fun _ _ => Run.ensures_pure.mpr rfl
  unfold assign
  split
  · exact Run.ensures_of_next fun m middle => hundefined _ middle
  · exact hundefined _ state
  · exact hundefined _ state
  · exact hundefined _ state
  · exact hundefined _ state

theorem assign_isClean (program : Program) (ev : Evaluator) (fuel : Nat) (frame : Frame)
    (id target value : NodeId) (declares : Bool) :
    (assign program ev fuel frame id target value declares).Ensures state
      fun m _ => m.isClean = true := by
  refine (assign_undefined program ev fuel frame id target value declares).imp ?_
  intro m final hm
  rw [hm]
  rfl

theorem call_isClean (ev : Evaluator) (frame : Frame) (id callee : NodeId) (args : List NodeId) :
    (call ev frame id callee args).Ensures state fun m _ => m.isClean = true := by
  unfold call
  refine Run.ensures_of_next fun callee middle => ?_
  split
  · exact fail_isClean _ id
  · split
    · exact fail_isClean _ id
    · split
      · exact fail_isClean _ id
      · refine Run.ensures_of_next fun values middle => ?_
        unfold invoke
        split
        · exact fail_isClean _ id
        · exact Run.ensures_of_next fun _ _ => Run.ensures_pure.mpr rfl

theorem recordLiteral_isClean (ev : Evaluator) (frame : Frame) (id : NodeId) (fields : Entries Ty)
    (inits : List FieldInit) :
    (recordLiteral ev frame id fields inits).Ensures state fun m _ => m.isClean = true := by
  unfold recordLiteral
  exact Run.ensures_of_next fun values final => Run.ensures_pure.mpr rfl

section

variable {fuel : Nat} (hstate : state.Everywhere fun m => m.isClean = true)
include hstate

theorem subscript_isClean (frame : Frame) (id base index : NodeId) :
    (subscript (eval program fuel) frame id base index).Ensures state
      fun m _ => m.isClean = true := by
  have hev := eval_everywhere (hereditary_isClean program) fuel
  rw [subscript]
  refine hev.bind hstate fun b middle hb _ => ?_
  refine Run.ensures_of_next fun i final => ?_
  split
  · exact fail_isClean _ id
  · exact settle_isClean id fun m hm => (element_everywhere hb hm).self

theorem select_isClean (frame : Frame) (id base : NodeId) (name : String) :
    (select (eval program fuel) frame id base name).Ensures state fun m _ => m.isClean = true := by
  have hev := eval_everywhere (hereditary_isClean program) fuel
  rw [select]
  refine hev.bind hstate fun b middle hb _ => ?_
  split
  · exact fail_isClean _ id
  · exact settle_isClean id fun m hm => (field_everywhere hb hm).self

/-- A sequence yields undefined, or hands up what one of its statements returned. -/
theorem sequence_marks {frame : Frame} {body : List NodeId} {m : Marked} {final : State}
    (h : sequence (eval program fuel) frame body state = some (m, final)) :
    m = .undefined ∨ ∃ before statement after middle, body = before ++ statement :: after ∧
      RunsThrough program frame before state middle ∧
      (middle.Everywhere fun m => m.isClean = true) ∧
      eval program fuel frame statement middle = some (m, final) ∧ m.returned = true := by
  induction body generalizing state with
  | nil =>
    cases h
    exact .inl rfl
  | cons statement rest ih =>
    obtain ⟨first, middle, hfirst, hnext⟩ := Run.bind_eq_some_iff.mp h
    have hmiddle := (eval_everywhere (hereditary_isClean program) fuel frame statement state
      hstate first middle hfirst).2
    split at hnext
    · next hreturned =>
      cases hnext
      exact .inr ⟨[], statement, rest, state, rfl, .nil, hstate, hfirst, hreturned⟩
    · next hreturned =>
      rcases ih hmiddle hnext with hm | ⟨before, returning, after, reached, rfl, hruns, hrest⟩
      · exact .inl hm
      · exact .inr ⟨statement :: before, returning, after, reached, rfl,
          .cons ⟨fuel, hfirst⟩ (by simpa using hreturned) hruns, hrest⟩

/-- A conditional yields an unmarked value, or hands up what its branch yields. -/
theorem conditional_marks {frame : Frame} {init : Option NodeId} {test thenBranch : NodeId}
    {elseBranch : Option NodeId} {m : Marked} {final : State}
    (h : conditional (eval program fuel) frame init test thenBranch elseBranch state =
      some (m, final)) :
    m.isClean = true ∨ ∃ branch tested,
      TakesBranch program frame init test thenBranch elseBranch state branch tested ∧
      (tested.Everywhere fun m => m.isClean = true) ∧
      eval program fuel frame branch tested = some (m, final) := by
  have hev := eval_everywhere (hereditary_isClean program) fuel
  obtain ⟨⟨⟩, started, hinit, hchoose⟩ := Run.bind_eq_some_iff.mp h
  obtain ⟨outcome, tested, htest, hbranch⟩ := Run.bind_eq_some_iff.mp hchoose
  have hstarts : Starts program frame init state started ∧
      started.Everywhere fun m => m.isClean = true := by
    rcases init with _ | init
    · cases hinit
      exact ⟨rfl, hstate⟩
    · obtain ⟨first, hfirst⟩ := Run.discard_eq_some_iff.mp hinit
      exact ⟨⟨first, fuel, hfirst⟩, (hev frame init state hstate first _ hfirst).2⟩
  have htested := (hev frame test started hstarts.2 outcome tested htest).2
  rcases houtcome : outcome.value.bool? with _ | _ | _ <;> rw [houtcome] at hbranch
  · cases hbranch
    exact .inl rfl
  · rcases elseBranch with _ | elseBranch
    · cases hbranch
      exact .inl rfl
    · exact .inr ⟨elseBranch, tested, .no hstarts.1 ⟨fuel, htest⟩ houtcome rfl, htested, hbranch⟩
  · exact .inr ⟨thenBranch, tested, .yes hstarts.1 ⟨fuel, htest⟩ houtcome, htested, hbranch⟩

end

end Eval

/-- The marks of what a node yields, when the variables are clean. -/
theorem eval_marks {fuel : Nat} {id : NodeId} {m : Marked} {final : State}
    (hstate : state.Everywhere fun m => m.isClean = true)
    (h : eval program fuel frame id state = some (m, final)) :
    MarksExplained program frame id state m final := by
  induction fuel generalizing frame id state m final with
  | zero => cases h
  | succ fuel ih =>
    rw [eval_succ, Eval.rule] at h
    cases hnode : program.node? id with
    | none =>
      rw [hnode] at h
      exact .of_isClean (Eval.fail_isClean _ id m final h)
    | some node =>
      rw [hnode] at h
      cases node with
      | int n =>
        cases h
        exact .of_isClean rfl
      | string s =>
        cases h
        exact .of_isClean rfl
      | bool b =>
        cases h
        exact .of_isClean rfl
      | nil =>
        cases h
        exact .of_isClean rfl
      | arrayLiteral elem length elements =>
        exact .of_isClean (Eval.arrayLiteral_isClean _ _ _ _ _ _ m final h)
      | recordLiteral fields inits =>
        exact .of_isClean (Eval.recordLiteral_isClean _ _ id _ _ m final h)
      | block body =>
        rcases Eval.sequence_marks hstate h with
          rfl | ⟨before, statement, after, middle, hbody, hruns, hmiddle, hstatement, hreturned⟩
        · exact .of_isClean rfl
        · have hm := ih hmiddle hstatement
          exact ⟨hm.not_both, fun _ => ⟨_, hnode, .block hbody hruns ⟨fuel, hstatement⟩⟩,
            fun hmiss => absurd ⟨hreturned, hmiss⟩ hm.not_both⟩
      | ret value =>
        obtain ⟨returned, middle, -, hdone⟩ := Run.bind_eq_some_iff.mp h
        cases hdone
        exact ⟨by simp [Marked.asReturn, Marked.cleaned, Marked.plain],
          fun _ => ⟨_, hnode, .ret⟩, by simp [Marked.asReturn, Marked.cleaned, Marked.plain]⟩
      | cond init test thenBranch elseBranch =>
        rcases Eval.conditional_marks hstate h with
          hclean | ⟨branch, tested, htaken, htested, hbranch⟩
        · exact .of_isClean hclean
        · have hm := ih htested hbranch
          exact ⟨hm.not_both, fun _ => ⟨_, hnode, .branch htaken ⟨fuel, hbranch⟩⟩,
            fun hmiss => ⟨(hm.unresolved hmiss).1, _, hnode, .branch htaken ⟨fuel, hbranch⟩⟩⟩
      | assign target value declares =>
        exact .of_isClean (Eval.assign_isClean _ _ _ _ _ _ _ _ m final h)
      | binary op left right =>
        obtain ⟨l, middle, -, hright⟩ := Run.bind_eq_some_iff.mp h
        obtain ⟨r, reached, -, hsettle⟩ := Run.bind_eq_some_iff.mp hright
        exact .of_isClean (Eval.settle_isClean id (Eval.isClean_of_computed _) m final hsettle)
      | not operand =>
        obtain ⟨o, middle, -, hsettle⟩ := Run.bind_eq_some_iff.mp h
        exact .of_isClean (Eval.settle_isClean id (Eval.isClean_of_computed _) m final hsettle)
      | var name ty =>
        cases h
        cases hlookup : state.lookup name with
        | none =>
          have hnone := Option.or_eq_none_iff.mp hlookup
          exact ⟨by simp [Marked.miss], by simp [Marked.miss],
            fun _ => ⟨rfl, _, hnode, .var hnone.1 hnone.2⟩⟩
        | some bound => exact .of_isClean (hstate.lookup hlookup).self
      | subscript base index =>
        exact .of_isClean (Eval.subscript_isClean hstate _ _ _ _ m final h)
      | select base name => exact .of_isClean (Eval.select_isClean hstate _ _ _ _ m final h)
      | call callee args => exact .of_isClean (Eval.call_isClean _ _ _ _ _ m final h)

end Arbor
