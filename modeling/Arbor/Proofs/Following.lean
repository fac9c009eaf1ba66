import Arbor.Proofs.Default
import Arbor.Proofs.Lockstep

/-!
# Runs that follow another run

One run follows another one as long as that one stays calm: then it does what
corresponds to it, from the corresponding state to the corresponding state.  What
is calm is left open.  A run that ends calm has been calm all the time, so it is
enough to look at where it ends, and nothing at all is said of a run that does
not.

The values of the two runs need not be equal either.  A value of the second run
may stand for one of the first if no construct can tell them apart, except by
failing on the first one where that is not calm (`Substitution`, `Simulation`).

* `Run.Follows.bind`, `Run.Follows.mapM` — sequences and lists of runs;
* `Eval.rule_follows` — one level of evaluation in two frames, from the levels
  below, up to variables, assignments and calls.
-/

namespace Arbor

variable {α β : Type} {calm : State → Prop} {related : State → State → Prop}

/-! ### Runs -/

/-- If the first run ends calm, it started calm, and the second one does what corresponds to it. -/
def Run.Follows (calm : State → Prop) (related : State → State → Prop) (run run' : Run α)
    (rel : α → α → Prop) : Prop :=
  ∀ state a final, run state = some (a, final) → calm final →
    calm state ∧ ∀ state', related state state' →
      ∃ b final', run' state' = some (b, final') ∧ related final final' ∧ rel a b

namespace Run

theorem follows_pure {a b : α} {rel : α → α → Prop} (h : rel a b) :
    Follows calm related (pure a) (pure b) rel := by
  intro state a' final hrun hcalm
  cases hrun
  exact ⟨hcalm, fun state' hstate => ⟨b, state', rfl, hstate, h⟩⟩

theorem follows_outOfFuel {run' : Run α} {rel : α → α → Prop} :
    Follows calm related Run.outOfFuel run' rel := by
  intro state a final hrun
  cases hrun

theorem Follows.bind {run run' : Run α} {next next' : α → Run β} {rel : α → α → Prop}
    {rel' : β → β → Prop} (hrefl : ∀ a, rel a a) (h : Follows calm related run run' rel)
    (hnext : ∀ a b, rel a b → Follows calm related (next a) (next' b) rel') :
    Follows calm related (run >>= next) (run' >>= next') rel' := by
  intro state c final hboth hcalm
  obtain ⟨a, middle, hrun, hrest⟩ := bind_eq_some_iff.mp hboth
  -- the second part went from the middle to a calm end, so the middle was calm
  have hmiddle : calm middle := (hnext a a (hrefl a) middle c final hrest hcalm).1
  obtain ⟨hstate, hfirst⟩ := h state a middle hrun hmiddle
  refine ⟨hstate, fun state' hrelated => ?_⟩
  obtain ⟨b, middle', hrun', hmiddle', hab⟩ := hfirst state' hrelated
  obtain ⟨c', final', hrest', hfinal', hcc'⟩ :=
    (hnext a b hab middle c final hrest hcalm).2 middle' hmiddle'
  exact ⟨c', final', bind_eq_some_iff.mpr ⟨b, middle', hrun', hrest'⟩, hfinal', hcc'⟩

/-- Where both yield the same, they may go on in the same way. -/
theorem Follows.bind_eq {run run' : Run α} {next next' : α → Run β} {rel' : β → β → Prop}
    (h : Follows calm related run run' Eq)
    (hnext : ∀ a, Follows calm related (next a) (next' a) rel') :
    Follows calm related (run >>= next) (run' >>= next') rel' := by
  refine h.bind (fun _ => rfl) fun a b hab => ?_
  subst hab
  exact hnext a

theorem Follows.discard {run run' : Run α} {rel : α → α → Prop} (hrefl : ∀ a, rel a a)
    (h : Follows calm related run run' rel) :
    Follows calm related (Functor.discard run) (Functor.discard run') Eq := by
  have hdiscard : ∀ run : Run α, (Functor.discard run : Run Unit) = (fun _ => ()) <$> run :=
    fun _ => rfl
  rw [hdiscard, hdiscard, map_eq_pure_bind, map_eq_pure_bind]
  exact h.bind hrefl fun _ _ _ => follows_pure rfl

theorem Follows.mapM {run run' : α → Run β} {rel : β → β → Prop} (hrefl : ∀ b, rel b b)
    {causes : List α} (h : ∀ a ∈ causes, Follows calm related (run a) (run' a) rel) :
    Follows calm related (causes.mapM run) (causes.mapM run') (List.Forall₂ rel) := by
  have hrefls : ∀ bs, List.Forall₂ rel bs bs := fun bs => List.forall₂_same.mpr fun b _ => hrefl b
  induction causes with
  | nil => exact follows_pure .nil
  | cons a rest ih =>
    obtain ⟨hhead, hrest⟩ := List.forall_mem_cons.mp h
    rw [List.mapM_cons, List.mapM_cons]
    refine hhead.bind hrefl fun b b' hb => ?_
    refine (ih hrest).bind hrefls fun bs bs' hbs => ?_
    exact follows_pure (.cons hb hbs)

/-- The same is computed beside both states. -/
theorem follows_sizing (computed : Sizing α) :
    Follows calm related (sizing computed) (sizing computed) Eq := by
  intro state outcome final hrun hcalm
  obtain ⟨value, hvalue, heq⟩ := Option.map_eq_some_iff.mp hrun
  cases heq
  refine ⟨hcalm, fun state' hstate => ⟨outcome, state', ?_, hstate, rfl⟩⟩
  exact Option.map_eq_some_iff.mpr ⟨outcome, hvalue, rfl⟩

end Run

/-! ### Values -/

/-- No construct can tell the second value from the first one, except by failing on the first. -/
structure Substitution (rel : Marked → Marked → Prop) : Prop where
  refl : ∀ m, rel m m
  returned : ∀ {m m' : Marked}, rel m m' → m'.returned = m.returned
  resolved : ∀ {m m' : Marked}, rel m m' → m.unresolved = false → m'.unresolved = false
  asReturn : ∀ {m m' : Marked}, rel m m' → rel m.cleaned.asReturn m'.cleaned.asReturn
  list : ∀ {items items' : List Marked} (elem : Ty) (length : NodeId),
    List.Forall₂ rel items items' → rel (.list elem length items) (.list elem length items')
  record : ∀ {fields fields' : Entries Marked} (shape : Entries Ty),
    List.Forall₂ (fun field field' => field.1 = field'.1 ∧ rel field.2 field'.2) fields fields' →
      rel (.record shape fields) (.record shape fields')
  bool : ∀ {m m' : Marked} {b : Bool}, rel m m' → m.value.bool? = some b →
    m'.value.bool? = some b
  binary : ∀ {l l' r r' : Marked} {op : Operator} {v : Value}, rel l l' → rel r r' →
    op.apply l.value r.value = .ok v → op.apply l'.value r'.value = .ok v
  not : ∀ {m m' : Marked} {v : Value}, rel m m' → Operator.applyNot m.value = .ok v →
    Operator.applyNot m'.value = .ok v
  element : ∀ {base base' index index' m : Marked}, rel base base' → rel index index' →
    Eval.element base.value index.value = .ok m →
      ∃ m', Eval.element base'.value index'.value = .ok m' ∧ rel m m'
  field : ∀ {base base' m : Marked} {name : String}, rel base base' →
    Eval.field base.value name = .ok m → ∃ m', Eval.field base'.value name = .ok m' ∧ rel m m'

/-- Every value stands for itself. -/
theorem substitution_eq : Substitution Eq where
  refl _ := rfl
  returned h := by rw [h]
  resolved h hm := by rw [← h, hm]
  asReturn h := by rw [h]
  list elem length h := by
    rw [List.forall₂_eq_eq_eq] at h
    rw [h]
  record shape h := by
    have heq : (fun field field' : String × Marked => field.1 = field'.1 ∧ field.2 = field'.2) =
        Eq := by
      funext field field'
      exact propext Prod.ext_iff.symm
    rw [heq, List.forall₂_eq_eq_eq] at h
    rw [h]
  bool h hm := by rw [← h, hm]
  binary h h' hv := by rw [← h, ← h', hv]
  not h hv := by rw [← h, hv]
  element h h' hm := ⟨_, by rw [← h, ← h', hm], rfl⟩
  field h hm := ⟨_, by rw [← h, hm], rfl⟩

/-- Values that stand for each other, in states that are followed. -/
structure Simulation (calm : State → Prop) (related : State → State → Prop)
    (rel : Marked → Marked → Prop) : Prop extends Substitution rel where
  fault : ∀ (state : State) (fault : Located Fault), calm (state.record fault) →
    calm state ∧ ∀ state', related state state' → related (state.record fault) (state'.record fault)
  /-- Where values may differ, no fault is calm. -/
  same : (∀ m m', rel m m' → m' = m) ∨
    ∀ (state : State) (fault : Located Fault), ¬ calm (state.record fault)

/-! ### The rules -/

namespace Eval

variable {program : Program} {ev : Evaluator} {fuel : Nat} {frame frame' : Frame} {id : NodeId}
  {rel : Marked → Marked → Prop} (S : Simulation calm related rel)

/-- An operator's value is one of the node. -/
theorem operator_eq_ok_iff {outcome : Except OperatorError Value} {m : Marked} :
    (outcome.map Marked.plain).mapError Fault.operator = .ok m ↔
      ∃ v, outcome = .ok v ∧ m = .plain v := by
  cases outcome with
  | error error => simp [Except.map, Except.mapError]
  | ok v => simp [Except.map, Except.mapError, eq_comm]

include S

/-- Where a fault is recorded, the second run need not do the same unless its values are the
same. -/
theorem fail_follows (fault : Fault) (id : NodeId) {run' : Run Marked}
    (hsame : (∀ m m', rel m m' → m' = m) → run' = Run.fail fault id) :
    Run.Follows calm related (Run.fail fault id) run' rel := by
  intro state m final hrun hcalm
  cases hrun
  rcases S.same with heq | hnever
  · rw [hsame heq]
    obtain ⟨hstate, hrecord⟩ := S.fault state _ hcalm
    exact ⟨hstate, fun state' hrelated =>
      ⟨.undefined, _, rfl, hrecord state' hrelated, S.refl _⟩⟩
  · exact absurd hcalm (hnever state _)

theorem settle_follows (id : NodeId) {outcome outcome' : Except Fault Marked}
    (hok : ∀ m, outcome = .ok m → ∃ m', outcome' = .ok m' ∧ rel m m')
    (hsame : (∀ m m', rel m m' → m' = m) → outcome' = outcome) :
    Run.Follows calm related (settle id outcome) (settle id outcome') rel := by
  cases outcome with
  | error fault => exact fail_follows S fault id fun heq => by rw [hsame heq]; rfl
  | ok m =>
    obtain ⟨m', rfl, hm⟩ := hok m rfl
    exact Run.follows_pure hm

theorem settle_operator_follows (id : NodeId) {outcome outcome' : Except OperatorError Value}
    (hok : ∀ v, outcome = .ok v → outcome' = .ok v)
    (hsame : (∀ m m', rel m m' → m' = m) → outcome' = outcome) :
    Run.Follows calm related (settle id ((outcome.map .plain).mapError .operator))
      (settle id ((outcome'.map .plain).mapError .operator)) rel := by
  refine settle_follows S id (fun m hm => ?_) fun heq => by rw [hsame heq]
  obtain ⟨v, hv, rfl⟩ := operator_eq_ok_iff.mp hm
  exact ⟨.plain v, operator_eq_ok_iff.mpr ⟨v, hok v hv, rfl⟩, S.refl _⟩

theorem arrayLiteral_follows (elem : Ty) (length : NodeId) {elements : List NodeId}
    (helements : ∀ element ∈ elements,
      Run.Follows calm related (ev frame element) (ev frame' element) rel) :
    Run.Follows calm related (arrayLiteral ev frame id elem length elements)
      (arrayLiteral ev frame' id elem length elements) rel := by
  have hfail : ∀ fault, Run.Follows calm related (Run.fail fault id) (Run.fail fault id) rel :=
    fun fault => fail_follows S fault id fun _ => rfl
  refine (Run.follows_sizing _).bind_eq fun outcome => ?_
  cases outcome with
  | error cause => exact hfail _
  | ok n =>
    dsimp only
    split
    · refine (Run.follows_sizing _).bind_eq fun items => ?_
      cases items with
      | error cause => exact hfail _
      | ok items => exact Run.follows_pure (S.refl _)
    · split
      · exact hfail _
      · refine (Run.Follows.mapM S.refl helements).bind
          (fun items => List.forall₂_same.mpr fun item _ => S.refl item) fun items items' h => ?_
        exact Run.follows_pure (S.list elem length h)

theorem recordLiteral_follows (fields : Entries Ty) {inits : List FieldInit}
    (hinits : ∀ init ∈ inits,
      Run.Follows calm related (ev frame init.value) (ev frame' init.value) rel) :
    Run.Follows calm related (recordLiteral ev frame id fields inits)
      (recordLiteral ev frame' id fields inits) rel := by
  have hfield : ∀ field : String × Ty, Run.Follows calm related
      (literalField ev frame id inits field.1 field.2)
      (literalField ev frame' id inits field.1 field.2) rel := by
    intro field
    unfold literalField
    split
    · next init hinit => exact hinits init (List.mem_of_find?_eq_some hinit)
    · refine (Run.follows_sizing _).bind_eq fun outcome => ?_
      cases outcome with
      | error cause => exact fail_follows S _ id fun _ => rfl
      | ok zero => exact Run.follows_pure (S.refl zero)
  unfold recordLiteral
  refine (Run.Follows.mapM (fun value => ⟨rfl, S.refl value.2⟩) fun field _ => ?_).bind
    (fun values => List.forall₂_same.mpr fun value _ => ⟨rfl, S.refl value.2⟩)
    fun values values' h => Run.follows_pure (S.record fields h)
  exact (hfield field).bind S.refl fun m m' hm => Run.follows_pure ⟨rfl, hm⟩

theorem sequence_follows {body : List NodeId}
    (hbody : ∀ statement ∈ body,
      Run.Follows calm related (ev frame statement) (ev frame' statement) rel) :
    Run.Follows calm related (sequence ev frame body) (sequence ev frame' body) rel := by
  induction body with
  | nil => exact Run.follows_pure (S.refl _)
  | cons statement rest ih =>
    obtain ⟨hstatement, hrest⟩ := List.forall_mem_cons.mp hbody
    refine hstatement.bind S.refl fun m m' hm => ?_
    rw [S.returned hm]
    split
    · exact Run.follows_pure hm
    · exact ih hrest

theorem conditional_follows {init : Option NodeId} {test thenBranch : NodeId}
    {elseBranch : Option NodeId}
    (hinit : ∀ child ∈ init, Run.Follows calm related (ev frame child) (ev frame' child) rel)
    (htest : Run.Follows calm related (ev frame test) (ev frame' test) rel)
    (hthen : Run.Follows calm related (ev frame thenBranch) (ev frame' thenBranch) rel)
    (helse : ∀ child ∈ elseBranch,
      Run.Follows calm related (ev frame child) (ev frame' child) rel) :
    Run.Follows calm related (conditional ev frame init test thenBranch elseBranch)
      (conditional ev frame' init test thenBranch elseBranch) rel := by
  have hstart : Run.Follows calm related (optionally ev frame init) (optionally ev frame' init)
      Eq := by
    cases init with
    | none => exact Run.follows_pure rfl
    | some statement => exact (hinit statement rfl).discard S.refl
  refine hstart.bind_eq fun _ => htest.bind S.refl fun outcome outcome' houtcome => ?_
  cases hbool : outcome.value.bool? with
  | none =>
    refine fail_follows S _ test fun heq => ?_
    rw [heq outcome outcome' houtcome, hbool]
  | some b =>
    rw [S.bool houtcome hbool]
    cases b with
    | true => exact hthen
    | false =>
      cases elseBranch with
      | none => exact Run.follows_pure (S.refl _)
      | some branch => exact helse branch rfl

theorem subscript_follows {base index : NodeId}
    (hbase : Run.Follows calm related (ev frame base) (ev frame' base) rel)
    (hindex : Run.Follows calm related (ev frame index) (ev frame' index) rel) :
    Run.Follows calm related (subscript ev frame id base index) (subscript ev frame' id base index)
      rel := by
  refine hbase.bind S.refl fun b b' hb => hindex.bind S.refl fun i i' hi => ?_
  by_cases hmiss : b.unresolved = true
  · rw [if_pos hmiss]
    refine fail_follows S _ id fun heq => ?_
    rw [heq b b' hb, if_pos hmiss]
  · have hmiss' : ¬ b'.unresolved = true := by
      rw [S.resolved hb (Bool.eq_false_of_not_eq_true hmiss)]
      exact nofun
    rw [if_neg hmiss, if_neg hmiss']
    refine settle_follows S id (fun m hm => S.element hb hi hm) fun heq => ?_
    rw [heq b b' hb, heq i i' hi]

theorem select_follows {base : NodeId} (name : String)
    (hbase : Run.Follows calm related (ev frame base) (ev frame' base) rel) :
    Run.Follows calm related (select ev frame id base name) (select ev frame' id base name)
      rel := by
  refine hbase.bind S.refl fun b b' hb => ?_
  by_cases hmiss : b.unresolved = true
  · rw [if_pos hmiss]
    refine fail_follows S _ id fun heq => ?_
    rw [heq b b' hb, if_pos hmiss]
  · have hmiss' : ¬ b'.unresolved = true := by
      rw [S.resolved hb (Bool.eq_false_of_not_eq_true hmiss)]
      exact nofun
    rw [if_neg hmiss, if_neg hmiss']
    exact settle_follows S id (fun m hm => S.field hb hm) fun heq => by rw [heq b b' hb]

/-- One level of evaluation follows if the levels below do, and variables, assignments and calls
do. -/
theorem rule_follows
    (hchild : ∀ node, program.node? id = some node → ∀ child ∈ node.children program,
      Run.Follows calm related (ev frame child) (ev frame' child) rel ∧
      Run.Follows calm related (ev frame.sequence child) (ev frame'.sequence child) rel)
    (hvar : ∀ name ty, program.node? id = some (.var name ty) →
      Run.Follows calm related (get >>= fun state => pure ((state.lookup name).getD .miss))
        (get >>= fun state => pure ((state.lookup name).getD .miss)) rel)
    (hassign : ∀ target value declares,
      program.node? id = some (.assign target value declares) →
      Run.Follows calm related (assign program ev fuel frame id target value declares)
        (assign program ev fuel frame' id target value declares) rel)
    (hcall : ∀ callee args, program.node? id = some (.call callee args) →
      Run.Follows calm related (call ev frame id callee (program.children args))
        (call ev frame' id callee (program.children args)) rel) :
    Run.Follows calm related (rule program ev fuel frame id) (rule program ev fuel frame' id)
      rel := by
  unfold rule
  cases hnode : program.node? id with
  | none => exact fail_follows S _ id fun _ => rfl
  | some node =>
    have hchildren : ∀ child ∈ node.children program,
        Run.Follows calm related (ev frame child) (ev frame' child) rel :=
      fun child hmem => (hchild node hnode child hmem).1
    have hconst : ∀ m, Run.Follows calm related (pure m) (pure m) rel :=
      fun m => Run.follows_pure (S.refl m)
    cases node with
    | int n => exact hconst _
    | string s => exact hconst _
    | bool b => exact hconst _
    | nil => exact hconst _
    | arrayLiteral elem length elements => exact arrayLiteral_follows S elem length hchildren
    | recordLiteral fields inits =>
      exact recordLiteral_follows S fields fun init hinit =>
        hchildren init.value (List.mem_map_of_mem hinit)
    | block body => exact sequence_follows S fun child hmem => (hchild _ hnode child hmem).2
    | ret value =>
      exact (hchildren value List.mem_cons_self).bind S.refl fun m m' hm =>
        Run.follows_pure (S.asReturn hm)
    | cond init test thenBranch elseBranch =>
      exact conditional_follows S
        (fun child hmem => hchildren child (by simp [Node.children, Option.mem_def.mp hmem]))
        (hchildren test (by simp [Node.children]))
        (hchildren thenBranch (by simp [Node.children]))
        (fun child hmem => hchildren child (by simp [Node.children, Option.mem_def.mp hmem]))
    | assign target value declares => exact hassign target value declares hnode
    | binary op left right =>
      have hright := hchildren right (List.mem_cons_of_mem _ List.mem_cons_self)
      refine (hchildren left List.mem_cons_self).bind S.refl fun l l' hl => ?_
      refine hright.bind S.refl fun r r' hr => ?_
      refine settle_operator_follows S id (fun v hv => S.binary hl hr hv) fun heq => ?_
      rw [heq l l' hl, heq r r' hr]
    | not operand =>
      refine (hchildren operand List.mem_cons_self).bind S.refl fun o o' ho => ?_
      exact settle_operator_follows S id (fun v hv => S.not ho hv) fun heq => by rw [heq o o' ho]
    | var name ty => exact hvar name ty hnode
    | subscript base index =>
      exact subscript_follows S (hchildren base List.mem_cons_self)
        (hchildren index (List.mem_cons_of_mem _ List.mem_cons_self))
    | select base name => exact select_follows S name (hchildren base List.mem_cons_self)
    | call callee args => exact hcall callee args hnode

end Eval

end Arbor
