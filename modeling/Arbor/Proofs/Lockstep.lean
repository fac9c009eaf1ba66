import Arbor.Proofs.Effects
import Arbor.Proofs.Matching

/-!
# Two evaluators in lockstep

Two evaluators may differ in the program they read, in their frames and in the
states they start from.  Their rules match if everything below does: the nodes
and the lists that are read (`Program.Region`), the variables that are named
(`Congruence`), the nodes below, and calls (`Lockstep`).

The invariant on the way is a property that holds at every depth of every
variable; it tells which functions can be called at all.

* `defaultValue_agree` — a default depends on nothing but the lengths in its
  type;
* `Congruence.store` — a write to a place does the same in related states;
* `Eval.rule_matches` — one level of evaluation, from the levels below;
* `eval_matches` — evaluation of any node, with any fuel;
* `Program.Region.eval_eq` — two programs that read alike evaluate alike.
-/

namespace Arbor

variable {α β : Type} {lacking : Prop}

/-! ### Lengths and defaults -/

/-- Both computations answer the same, unless both are allowed to lack fuel and do. -/
def Sizing.Agree (lacking : Prop) (computed computed' : Sizing α) : Prop :=
  computed' = computed ∧ (lacking ∨ computed.run.isSome)

namespace Sizing.Agree

theorem of_isSome {computed : Sizing α} (h : computed.run.isSome) :
    Agree lacking computed computed :=
  ⟨rfl, .inr h⟩

theorem bind {computed computed' : Sizing α} {next next' : α → Sizing β}
    (h : Agree lacking computed computed') (hnext : ∀ a, Agree lacking (next a) (next' a)) :
    Agree lacking (computed >>= next) (computed' >>= next') := by
  obtain ⟨rfl, hsome⟩ := h
  have heq : next' = next := funext fun a => (hnext a).1
  subst heq
  refine ⟨rfl, hsome.elim .inl fun hsome => ?_⟩
  obtain ⟨outcome, houtcome⟩ := Option.isSome_iff_exists.mp hsome
  rw [ExceptT.run_bind, houtcome]
  cases outcome with
  | error cause => exact .inr rfl
  | ok a => exact (hnext a).2

end Sizing.Agree

section Sizing

variable {lengthOf lengthOf' : NodeId → Sizing Nat}

/-- A default depends on nothing but the lengths in its type. -/
theorem defaultValue_agree {ty : Ty}
    (h : ∀ length ∈ ty.lengths, Sizing.Agree lacking (lengthOf length) (lengthOf' length)) :
    Sizing.Agree lacking (defaultValue lengthOf ty) (defaultValue lengthOf' ty) := by
  induction ty using Ty.induct with
  | int => exact .of_isSome rfl
  | string => exact .of_isSome rfl
  | bool => exact .of_isSome rfl
  | undefined => exact .of_isSome rfl
  | unknown => exact .of_isSome rfl
  | function => exact .of_isSome rfl
  | array elem length ih =>
    rw [Ty.lengths, List.forall_mem_cons] at h
    unfold defaultValue
    apply h.1.bind
    intro n
    by_cases hn : n = 0
    · rw [if_pos hn, if_pos hn]
      exact .of_isSome rfl
    · rw [if_neg hn, if_neg hn]
      refine (ih h.2).bind fun zero => .of_isSome ?_
      cases filled zero n <;> rfl
  | record fields ih =>
    have hfields : Sizing.Agree lacking (defaultFields lengthOf fields)
        (defaultFields lengthOf' fields) := by
      rw [Ty.lengths] at h
      induction fields with
      | nil => exact .of_isSome rfl
      | cons field rest ihrest =>
        rw [Ty.fieldLengths, List.forall_mem_append] at h
        obtain ⟨hhead, hrest⟩ := List.forall_mem_cons.mp ih
        unfold defaultFields
        exact (hhead h.1).bind fun zero => (ihrest hrest h.2).bind fun values => .of_isSome rfl
    unfold defaultValue
    exact hfields.bind fun values => .of_isSome rfl

theorem defaultItems_agree {elem : Ty} (n : Nat)
    (h : ∀ length ∈ elem.lengths, Sizing.Agree lacking (lengthOf length) (lengthOf' length)) :
    Sizing.Agree lacking (defaultItems lengthOf elem n) (defaultItems lengthOf' elem n) := by
  unfold defaultItems
  split
  · exact .of_isSome rfl
  · refine (defaultValue_agree h).bind fun zero => .of_isSome ?_
    cases filled zero n <;> rfl

/-- Where the lengths in a type are computed, so is its default. -/
theorem defaultValue_isSome_of_lengths {ty : Ty}
    (h : ∀ length ∈ ty.lengths, (lengthOf length).run.isSome) :
    (defaultValue lengthOf ty).run.isSome := by
  have hagree : Sizing.Agree False (defaultValue lengthOf ty) (defaultValue lengthOf ty) :=
    defaultValue_agree fun length hlength => .of_isSome (h length hlength)
  exact hagree.2.resolve_left not_false

end Sizing

theorem Run.matches_sizing {related : State → State → Prop} {pre : State → Prop}
    {computed computed' : Sizing α} (h : Sizing.Agree lacking computed computed') :
    Run.Matches lacking related pre (Run.sizing computed) (Run.sizing computed') fun _ => pre :=
  Run.matches_aside (congrArg ExceptT.run h.1) h.2

/-! ### Related states -/

/-- Related states hold the same under the named variables, and stay related when the same is
done to both. -/
structure Congruence (named : String → Prop) (related : State → State → Prop) : Prop where
  get? : ∀ {state state' : State} {name : String}, related state state' → named name →
    ∀ scope : Eval.Scope,
      (scope.variables state').get? name = (scope.variables state).get? name
  insert : ∀ {state state' : State} {name : String}, related state state' → named name →
    ∀ (scope : Eval.Scope) (m : Marked),
      related (scope.update (NameMap.insert (scope.variables state) name m) state)
        (scope.update (NameMap.insert (scope.variables state') name m) state')
  record : ∀ {state state' : State}, related state state' → ∀ fault : Located Fault,
    related (state.record fault) (state'.record fault)
  enter : ∀ {state state' : State}, related state state' → ∀ locals : Namespace,
    related { state with locals } { state' with locals }
  leave : ∀ {state state' final final' : State}, related state state' → related final final' →
    related { final with locals := state.locals } { final' with locals := state'.locals }

/-- Equal states are related in every way there is. -/
theorem congruence_eq : Congruence (fun _ => True) Eq where
  get? heq _ _ := by rw [heq]
  insert heq _ _ _ := by rw [heq]
  record heq _ := by rw [heq]
  enter heq _ := by rw [heq]
  leave heq heq' := by rw [heq, heq']

namespace Congruence

variable {named : String → Prop} {related : State → State → Prop}
  (R : Congruence named related) {state state' : State} {name : String}
include R

theorem contains (h : related state state') (hname : named name) (scope : Eval.Scope) :
    (scope.variables state').contains name = (scope.variables state).contains name := by
  unfold NameMap.contains
  rw [R.get? h hname scope]

theorem lookup (h : related state state') (hname : named name) :
    state'.lookup name = state.lookup name := by
  have hlocal : state'.locals.get? name = state.locals.get? name := R.get? h hname .local
  have hglobal : state'.globals.get? name = state.globals.get? name := R.get? h hname .global
  rw [State.lookup, hlocal, hglobal, State.lookup]

theorem boundIn? (h : related state state') (hname : named name) :
    Eval.boundIn? state' name = Eval.boundIn? state name := by
  have hlocal : state'.locals.contains name = state.locals.contains name :=
    R.contains h hname .local
  have hglobal : state'.globals.contains name = state.globals.contains name :=
    R.contains h hname .global
  rw [Eval.boundIn?, hlocal, hglobal, Eval.boundIn?]

theorem scopeOf (h : related state state') (hname : named name) {frame frame' : Frame}
    (hframe : frame'.isFunction = frame.isFunction) (declares : Bool) (m : Marked) :
    Eval.scopeOf frame' state' name declares m = Eval.scopeOf frame state name declares m := by
  have hlocal : state'.locals.contains name = state.locals.contains name :=
    R.contains h hname .local
  have hglobal : state'.globals.contains name = state.globals.contains name :=
    R.contains h hname .global
  rw [Eval.scopeOf, hlocal, hglobal, hframe, Eval.scopeOf]

/-- A write to a place does the same in related states. -/
theorem store (h : related state state') {place : Eval.Place} (hname : named place.root)
    (m : Marked) :
    (∃ fault, place.store m state = .error fault ∧ place.store m state' = .error fault) ∨
      ∃ stored stored', place.store m state = .ok stored ∧ place.store m state' = .ok stored' ∧
        related stored stored' := by
  obtain ⟨scope, root, steps⟩ := place
  have hsame := R.get? h hname scope
  cases hold : (scope.variables state).get? root with
  | none =>
    unfold Eval.Place.store
    dsimp only at hname hsame ⊢
    rw [hsame, hold]
    exact .inl ⟨_, rfl, rfl⟩
  | some old =>
    rw [Place.store_eq m hold, Place.store_eq m (hsame.trans hold)]
    cases Eval.replaceAt m.cleaned steps old with
    | error fault => exact .inl ⟨fault, rfl, rfl⟩
    | ok new => exact .inr ⟨_, _, rfl, rfl, R.insert h hname scope new⟩

end Congruence

/-- A set of nodes that refer only to each other, and that two programs hold alike; the variables
among them are named. -/
structure Program.Region (program other : Program) (named : String → Prop)
    (inside : NodeId → Prop) : Prop where
  alike : ∀ {id : NodeId}, inside id → program.ReadsAlike other id
  closed : ∀ {id ref : NodeId}, inside id → program.Refers id ref → inside ref
  var : ∀ {id : NodeId} {name : String} {ty : Ty}, inside id →
    program.node? id = some (.var name ty) → named name

theorem Program.Region.symm {program other : Program} {named : String → Prop}
    {inside : NodeId → Prop} (h : program.Region other named inside) :
    other.Region program named inside :=
  ⟨fun hid => (h.alike hid).symm,
    fun hid hrefers => h.closed hid ((h.alike hid).refers_iff.mp hrefers),
    fun hid hnode => h.var hid ((h.alike hid).node ▸ hnode)⟩

/-- All nodes, if nothing is asked of names. -/
theorem Program.region_self (program : Program) :
    program.Region program (fun _ => True) fun _ => True :=
  ⟨fun _ => .refl program _, fun _ _ => trivial, fun _ _ => trivial⟩

/-! ### The rules -/

/-- What a node leaves to the nodes after it. -/
def HandedOn (P : Marked → Prop) (m : Marked) (state : State) : Prop :=
  m.cleaned.Everywhere P ∧ state.Everywhere P

/-- Nothing in particular is handed on by evaluation. -/
theorem hereditary_true (program : Program) : Hereditary program fun _ => True :=
  ⟨trivial, fun _ _ => trivial, fun _ => trivial, fun _ => trivial, fun _ => trivial,
    fun _ _ _ _ => trivial, fun _ _ _ _ => trivial⟩

theorem State.everywhere_true (state : State) : state.Everywhere fun _ => True :=
  ⟨fun _ _ _ _ _ => trivial, fun _ _ _ _ _ => trivial⟩

/-- Whatever is evaluated, the state evolves. -/
theorem eval_yields_true (program : Program) (fuel : Nat) (frame : Frame) (id : NodeId)
    (state : State) : (eval program fuel frame id).Ensures state
      (state.Yields (fun _ => True) (fun _ => True) fun _ => True) :=
  eval_yields (hereditary_true program) (program.footprint_true _) fuel frame trivial
    state.everywhere_true

/-- Everything below a node matches. -/
structure Lockstep (program : Program) (lacking : Prop) (related : State → State → Prop)
    (inside : NodeId → Prop) (P : Marked → Prop) (ev ev' : Evaluator) (fuel : Nat)
    (frame frame' : Frame) (id : NodeId) : Prop where
  isFunction : frame'.isFunction = frame.isFunction
  here : ∀ child, inside child → Run.Matches lacking related (State.Everywhere P)
    (ev frame child) (ev' frame' child) (HandedOn P)
  sequence : ∀ child, inside child → Run.Matches lacking related (State.Everywhere P)
    (ev frame.sequence child) (ev' frame'.sequence child) (HandedOn P)
  static : ∀ length, inside length → ev' {} length {} = ev {} length {} ∧
    (lacking ∨ (ev {} length {}).isSome)
  invoke : ∀ (signature : Signature) (args : List Marked), P (.plain (.function signature)) →
    (∀ arg ∈ args, arg.cleaned.Everywhere P) →
    Run.Matches lacking related (State.Everywhere P) (Eval.invoke ev frame id signature args)
      (Eval.invoke ev' frame' id signature args) fun _ _ => True
  /-- Targets of assignments are resolved with the same fuel. -/
  enough : lacking ∨ ∀ target, inside target → program.EndsWithin fuel target

namespace Eval

variable {program other : Program} {related : State → State → Prop} {named : String → Prop}
  {inside : NodeId → Prop} {P : Marked → Prop} {ev ev' : Evaluator} {fuel : Nat}
  {frame frame' : Frame} {id : NodeId}

theorem withLocals_apply (locals : Namespace) (run : Run α) (state : State) :
    withLocals locals run state = (run { state with locals }).map fun reached =>
      (reached.1, { reached.2 with locals := state.locals }) := by
  simp only [withLocals, Run.bind_apply, Run.get_apply, Run.set_apply, Option.bind_some]
  cases run { state with locals } <;> rfl

section Congruence

variable (R : Congruence named related)
include R

theorem fail_matches (fault : Fault) (id : NodeId) :
    Run.Matches lacking related (State.Everywhere P) (Run.fail fault id) (Run.fail fault id)
      fun _ => State.Everywhere P :=
  (Run.matches_modify fun _ _ hstate hrelated => ⟨R.record hrelated _, hstate.record _⟩).bind
    fun _ => Run.matches_pure fun _ hstate => hstate

theorem settle_matches (id : NodeId) (outcome : Except Fault Marked) :
    Run.Matches lacking related (State.Everywhere P) (settle id outcome) (settle id outcome)
      fun _ _ => True := by
  cases outcome with
  | error fault => exact (fail_matches R fault id).any
  | ok m => exact Run.matches_pure fun _ _ => trivial

theorem bindVariable_matches {name : String} (hname : named name)
    (hframe : frame'.isFunction = frame.isFunction) (declares : Bool) (m : Marked) :
    Run.Matches lacking related (State.Everywhere P) (bindVariable frame name declares m)
      (bindVariable frame' name declares m) fun _ _ => True := by
  refine Run.matches_modify fun state state' _ hrelated => ⟨?_, trivial⟩
  dsimp only
  rw [R.scopeOf hrelated hname hframe declares m]
  exact R.insert hrelated hname _ m.cleaned

theorem writePlace_matches {place : Except (Located Fault) Place}
    (hplace : ∀ p, place = .ok p → named p.root) (m : Marked) :
    Run.Matches lacking related (State.Everywhere P) (writePlace place m) (writePlace place m)
      fun _ _ => True := by
  intro state state' _ hrelated
  refine .inr ⟨(), _, _, writePlace_apply place m state, writePlace_apply place m state', ?_,
    trivial⟩
  cases place with
  | error fault => exact R.record hrelated fault
  | ok p =>
    rcases R.store hrelated (hplace p rfl) m with ⟨fault, hfault, hfault'⟩ |
      ⟨stored, stored', hstored, hstored', hafter⟩
    · simp only [Except.bind, hfault, hfault']
      exact R.record hrelated fault
    · simp only [Except.bind, hstored, hstored']
      exact hafter

/-- A call whose body matches. -/
theorem invoke_matches_of_admitted {signature : Signature} {args : List Marked}
    (hargs : ∀ arg ∈ args, arg.cleaned.Everywhere P)
    (hadmitted : frame.refusal? = none) (hadmitted' : frame'.refusal? = none)
    (hbody : Run.Matches lacking related (State.Everywhere P) (ev frame.callee signature.body)
      (ev' frame'.callee signature.body) (HandedOn P)) :
    Run.Matches lacking related (State.Everywhere P) (invoke ev frame id signature args)
      (invoke ev' frame' id signature args) fun _ _ => True := by
  have hlocals : (parameterScope signature args).Everywhere P := by
    apply Namespace.everywhere_ofPairs
    intro pair hpair
    exact hargs pair.2 (List.of_mem_zip hpair).2
  have hrun : Run.Matches lacking related (State.Everywhere P)
      (withLocals (parameterScope signature args) (ev frame.callee signature.body))
      (withLocals (parameterScope signature args) (ev' frame'.callee signature.body))
      fun _ _ => True := by
    intro state state' hstate hrelated
    have hcallee : State.Everywhere P { state with locals := parameterScope signature args } :=
      ⟨hlocals, hstate.globals⟩
    rw [withLocals_apply, withLocals_apply]
    rcases hbody _ _ hcallee (R.enter hrelated _) with ⟨hlacking, hrun, hrun'⟩ |
      ⟨m, final, final', hrun, hrun', hfinal, -⟩
    · rw [hrun, hrun']
      exact .inl ⟨hlacking, rfl, rfl⟩
    · rw [hrun, hrun']
      exact .inr ⟨m, _, _, rfl, rfl, R.leave hrelated hfinal, trivial⟩
  unfold invoke
  rw [hadmitted, hadmitted']
  exact hrun.bind fun m => Run.matches_pure fun _ h => h

end Congruence

/-- The state of a call is the caller's, whatever becomes of the call. -/
theorem invoke_matches_of_refused {signature : Signature} {args : List Marked} {limit limit' : Nat}
    (hrefused : frame.refusal? = some limit) (hrefused' : frame'.refusal? = some limit')
    (hrecord : ∀ state state', related state state' →
      related (state.record ⟨.callDepth limit, id⟩) (state'.record ⟨.callDepth limit', id⟩)) :
    Run.Matches lacking related (State.Everywhere P) (invoke ev frame id signature args)
      (invoke ev' frame' id signature args) fun _ _ => True := by
  unfold invoke
  rw [hrefused, hrefused']
  exact fun state state' _ hrelated => .inr ⟨_, _, _, Run.fail_apply .., Run.fail_apply ..,
    hrecord state state' hrelated, trivial⟩

section

variable (R : Congruence named related) (hregion : program.Region other named inside)
  (below : Lockstep program lacking related inside P ev ev' fuel frame frame' id)
include below

theorem staticLength_agree {length : NodeId} (hlength : inside length) :
    Sizing.Agree lacking (staticLength ev length) (staticLength ev' length) := by
  obtain ⟨heq, hsome⟩ := below.static length hlength
  refine ⟨by rw [staticLength, heq, staticLength], hsome.imp_right fun hsome => ?_⟩
  obtain ⟨reached, hreached⟩ := Option.isSome_iff_exists.mp hsome
  rw [staticLength, hreached]
  rfl

include R

theorem arrayLiteral_matches {elem : Ty} {length : NodeId} {elements : List NodeId}
    (hlengths : ∀ l ∈ (Ty.array elem length).lengths, inside l)
    (helements : ∀ element ∈ elements, inside element) :
    Run.Matches lacking related (State.Everywhere P)
      (arrayLiteral ev frame id elem length elements)
      (arrayLiteral ev' frame' id elem length elements) fun _ _ => True := by
  rw [Ty.lengths, List.forall_mem_cons] at hlengths
  obtain ⟨hlength, helem⟩ := hlengths
  have hfail : ∀ fault, Run.Matches lacking related (State.Everywhere P) (Run.fail fault id)
      (Run.fail fault id) fun _ _ => True :=
    fun fault => (fail_matches R fault id).any
  apply (Run.matches_sizing (staticLength_agree below hlength)).bind
  intro outcome
  rcases outcome with cause | n
  · exact hfail _
  · dsimp only
    split
    · have hitems := defaultItems_agree n fun l hl => staticLength_agree below (helem l hl)
      apply (Run.matches_sizing hitems).bind
      intro outcome
      rcases outcome with cause | items
      · exact hfail _
      · exact Run.matches_pure fun _ _ => trivial
    · split
      · exact hfail _
      · exact (Run.Matches.mapM fun element helement =>
          below.here element (helements element helement)).bind
            fun items => Run.matches_pure fun _ _ => trivial

theorem literalField_matches {inits : List FieldInit} {name : String} {ty : Ty}
    (hlengths : ∀ l ∈ ty.lengths, inside l) (hinits : ∀ init ∈ inits, inside init.value) :
    Run.Matches lacking related (State.Everywhere P) (literalField ev frame id inits name ty)
      (literalField ev' frame' id inits name ty) fun _ => State.Everywhere P := by
  unfold literalField
  split
  · next init hinit =>
    exact (below.here init.value (hinits init (List.mem_of_find?_eq_some hinit))).imp
      fun _ _ hpost => hpost.2
  · apply (Run.matches_sizing
      (defaultValue_agree fun l hl => staticLength_agree below (hlengths l hl))).bind
    intro outcome
    rcases outcome with cause | zero
    · exact fail_matches R _ id
    · exact Run.matches_pure fun _ h => h

theorem recordLiteral_matches {fields : Entries Ty} {inits : List FieldInit}
    (hlengths : ∀ l ∈ (Ty.record fields).lengths, inside l)
    (hinits : ∀ init ∈ inits, inside init.value) :
    Run.Matches lacking related (State.Everywhere P) (recordLiteral ev frame id fields inits)
      (recordLiteral ev' frame' id fields inits) fun _ _ => True := by
  rw [Ty.lengths] at hlengths
  have hfield : ∀ field ∈ fields, Run.Matches lacking related (State.Everywhere P)
      (do
        let value ← literalField ev frame id inits field.1 field.2
        pure (field.1, value))
      (do
        let value ← literalField ev' frame' id inits field.1 field.2
        pure (field.1, value))
      fun _ state => True ∧ state.Everywhere P := by
    intro field hfield
    have hfieldLengths : ∀ l ∈ field.2.lengths, inside l :=
      fun l hl => hlengths l (Ty.mem_fieldLengths hfield hl)
    exact (literalField_matches R below hfieldLengths hinits).bind
      fun value => Run.matches_pure fun _ h => ⟨trivial, h⟩
  exact (Run.Matches.mapM hfield).bind fun values => Run.matches_pure fun _ _ => trivial

omit R in
theorem sequence_matches {body : List NodeId} (hbody : ∀ statement ∈ body, inside statement) :
    Run.Matches lacking related (State.Everywhere P) (sequence ev frame.sequence body)
      (sequence ev' frame'.sequence body) fun _ _ => True := by
  induction body with
  | nil => exact Run.matches_pure fun _ _ => trivial
  | cons statement rest ih =>
    obtain ⟨hstatement, hrest⟩ := List.forall_mem_cons.mp hbody
    refine (below.sequence statement hstatement).bind_of fun m _ => ?_
    split
    · exact Run.matches_pure fun _ _ => trivial
    · exact ih hrest

omit R in
theorem optionally_matches {statement : Option NodeId}
    (hstatement : ∀ child ∈ statement, inside child) :
    Run.Matches lacking related (State.Everywhere P) (optionally ev frame statement)
      (optionally ev' frame' statement) fun _ => State.Everywhere P := by
  rcases statement with _ | statement
  · exact Run.matches_pure fun _ h => h
  · have hrun := (below.here statement (hstatement statement rfl)).imp fun _ _ hpost => hpost.2
    exact Run.Matches.map (fun _ => ()) hrun

theorem conditional_matches {init : Option NodeId} {test thenBranch : NodeId}
    {elseBranch : Option NodeId} (hinit : ∀ child ∈ init, inside child) (htest : inside test)
    (hthen : inside thenBranch) (helse : ∀ child ∈ elseBranch, inside child) :
    Run.Matches lacking related (State.Everywhere P)
      (conditional ev frame init test thenBranch elseBranch)
      (conditional ev' frame' init test thenBranch elseBranch) fun _ _ => True := by
  have hbranch : ∀ branch, inside branch → Run.Matches lacking related (State.Everywhere P)
      (ev frame branch) (ev' frame' branch) fun _ _ => True :=
    fun branch hbranch => (below.here branch hbranch).any
  refine (optionally_matches below hinit).bind fun _ => ?_
  refine (below.here test htest).bind_of fun outcome _ => ?_
  rcases outcome.value.bool? with _ | _ | _
  · exact (fail_matches R _ test).any
  · rcases elseBranch with _ | elseBranch
    · exact Run.matches_pure fun _ _ => trivial
    · exact hbranch elseBranch (helse elseBranch rfl)
  · exact hbranch thenBranch hthen

theorem subscript_matches {base index : NodeId} (hbase : inside base) (hindex : inside index) :
    Run.Matches lacking related (State.Everywhere P) (subscript ev frame id base index)
      (subscript ev' frame' id base index) fun _ _ => True := by
  refine (below.here base hbase).bind_of fun b _ => ?_
  refine (below.here index hindex).bind_of fun i _ => ?_
  split
  · exact (fail_matches R _ id).any
  · exact settle_matches R id _

theorem select_matches {base : NodeId} (hbase : inside base) (name : String) :
    Run.Matches lacking related (State.Everywhere P) (select ev frame id base name)
      (select ev' frame' id base name) fun _ _ => True := by
  refine (below.here base hbase).bind_of fun b _ => ?_
  split
  · exact (fail_matches R _ id).any
  · exact settle_matches R id _

theorem call_matches {callee : NodeId} {args : List NodeId} (hcallee : inside callee)
    (hargs : ∀ arg ∈ args, inside arg) :
    Run.Matches lacking related (State.Everywhere P) (call ev frame id callee args)
      (call ev' frame' id callee args) fun _ _ => True := by
  have hfail : ∀ fault, Run.Matches lacking related (State.Everywhere P) (Run.fail fault id)
      (Run.fail fault id) fun _ _ => True :=
    fun fault => (fail_matches R fault id).any
  refine (below.here callee hcallee).bind_of fun f hf => ?_
  split
  · exact hfail _
  · split
    · exact hfail _
    · next signature hsignature =>
      split
      · exact hfail _
      · have hfunction : P (.plain (.function signature)) := by
          have hself := hf.self
          rwa [Marked.cleaned, Value.signature?_ty_eq_some_iff.mp hsignature] at hself
        refine (Run.Matches.mapM fun arg harg => below.here arg (hargs arg harg)).bind_of
          fun values hvalues => ?_
        exact below.invoke signature values hfunction hvalues

include hregion

/-- A target is resolved to the same place, in a variable that is named. -/
theorem resolve_matches (depth : Nat) {target : NodeId} (htarget : inside target)
    (hdepth : lacking ∨ program.EndsWithin depth target) :
    Run.Matches lacking related (State.Everywhere P)
      (resolve program ev frame depth target).run (resolve other ev' frame' depth target).run
      fun place state => (∀ p, place = .ok p → named p.root) ∧ state.Everywhere P := by
  have herror : ∀ fault : Located Fault, Run.Matches lacking related (State.Everywhere P)
      (pure (.error fault)) (pure (.error fault))
      fun (place : Except (Located Fault) Place) state =>
        (∀ p, place = .ok p → named p.root) ∧ state.Everywhere P :=
    fun fault => Run.matches_pure fun _ h => ⟨nofun, h⟩
  -- resolving goes from base to base, with one unit of fuel less each time
  induction depth generalizing target with
  | zero =>
    rw [run_resolve_zero, run_resolve_zero]
    exact Run.matches_outOfFuel (hdepth.resolve_right not_false)
  | succ depth ih =>
    have hbase : ∀ base, program.Refers target base → lacking ∨ program.EndsWithin depth base :=
      fun base hrefers => hdepth.imp_right fun h => h base hrefers
    rw [run_resolve_succ, run_resolve_succ, (hregion.alike htarget).node]
    cases hnode : program.node? target with
    | none => exact herror _
    | some node =>
      cases node with
      | var name ty =>
        have hname := hregion.var htarget hnode
        intro state state' hstate hrelated
        simp only [Run.bind_apply, Run.get_apply, Option.bind_some]
        rw [R.boundIn? hrelated hname]
        cases boundIn? state name with
        | none => exact herror _ state state' hstate hrelated
        | some scope =>
          refine .inr ⟨_, _, _, rfl, rfl, hrelated, fun p hp => ?_, hstate⟩
          cases hp
          exact hname
      | subscript base index =>
        have hrefers : program.Refers target base :=
          Program.refers_of_child hnode List.mem_cons_self
        have hrefers' : program.Refers target index :=
          Program.refers_of_child hnode (List.mem_cons_of_mem _ List.mem_cons_self)
        refine (ih (hregion.closed htarget hrefers) (hbase base hrefers)).bind_of
          fun outcome houtcome => ?_
        rcases outcome with fault | place
        · exact herror fault
        · refine (below.here index (hregion.closed htarget hrefers')).bind_of fun m _ => ?_
          split
          · refine Run.matches_pure fun _ h => ⟨fun p hp => ?_, h⟩
            cases hp
            exact houtcome place rfl
          · exact herror _
      | select base name =>
        have hrefers : program.Refers target base :=
          Program.refers_of_child hnode List.mem_cons_self
        refine (ih (hregion.closed htarget hrefers) (hbase base hrefers)).bind_of
          fun outcome houtcome => ?_
        rcases outcome with fault | place
        · exact herror fault
        · refine Run.matches_pure fun _ h => ⟨fun p hp => ?_, h⟩
          cases hp
          exact houtcome place rfl
      | _ => exact herror _

theorem assign_matches {target value : NodeId} (htarget : inside target) (hvalue : inside value)
    (declares : Bool) :
    Run.Matches lacking related (State.Everywhere P)
      (assign program ev fuel frame id target value declares)
      (assign other ev' fuel frame' id target value declares) fun _ _ => True := by
  have hundefined : Run.Matches lacking related (fun _ => True)
      (pure Marked.undefined) (pure .undefined) fun _ _ => True :=
    Run.matches_pure fun _ h => h
  have hplace : Run.Matches lacking related (State.Everywhere P)
      (assignPlace program ev fuel frame target value)
      (assignPlace other ev' fuel frame' target value) fun _ _ => True := by
    refine (resolve_matches R hregion below fuel htarget
      (below.enough.imp_right fun h => h target htarget)).bind_of fun place hnamed => ?_
    refine (below.here value hvalue).bind_of fun m _ => ?_
    exact writePlace_matches R hnamed m
  have hreport : ∀ fault, Run.Matches lacking related (State.Everywhere P) (Run.report fault id)
      (Run.report fault id) fun _ _ => True :=
    fun fault => Run.matches_modify fun _ _ _ hrelated => ⟨R.record hrelated _, trivial⟩
  unfold assign
  rw [(hregion.alike htarget).node]
  cases hnode : program.node? target with
  | none => exact (hreport _).bind fun _ => hundefined
  | some node =>
    cases node with
    | var name ty =>
      refine (below.here value hvalue).bind_of fun m _ => ?_
      exact (bindVariable_matches R (hregion.var htarget hnode) below.isFunction declares m).bind
        fun _ => hundefined
    | subscript base index => exact hplace.bind fun _ => hundefined
    | select base name => exact hplace.bind fun _ => hundefined
    | _ => exact (hreport _).bind fun _ => hundefined

/-- One level of evaluation matches if the levels below do. -/
theorem rule_matches (halike : program.ReadsAlike other id)
    (hrefers : ∀ ref, program.Refers id ref → inside ref)
    (hvar : ∀ name ty, program.node? id = some (.var name ty) → named name) :
    Run.Matches lacking related (State.Everywhere P) (rule program ev fuel frame id)
      (rule other ev' fuel frame' id) fun _ _ => True := by
  unfold rule
  rw [halike.node]
  cases hnode : program.node? id with
  | none => exact (fail_matches R _ id).any
  | some node =>
    have hchildren : ∀ child ∈ node.children program, inside child :=
      fun child hchild => hrefers child (Program.refers_of_child hnode hchild)
    have hlengths : ∀ length ∈ node.lengths, inside length :=
      fun length hlength => hrefers length (Program.refers_of_length hnode hlength)
    have hlists := halike.lists node hnode
    have hinits := halike.inits node hnode
    have hconst : ∀ m, Run.Matches lacking related (State.Everywhere P) (pure m) (pure m)
        fun (_ : Marked) _ => True := fun m => Run.matches_pure fun _ _ => trivial
    cases node with
    | int n => exact hconst _
    | string s => exact hconst _
    | bool b => exact hconst _
    | nil => exact hconst _
    | arrayLiteral elem length elements =>
      dsimp only
      rw [hlists elements (List.mem_singleton.mpr rfl)]
      exact arrayLiteral_matches R below hlengths hchildren
    | recordLiteral fields inits =>
      dsimp only
      rw [hinits inits (List.mem_singleton.mpr rfl)]
      exact recordLiteral_matches R below hlengths fun init hinit =>
        hchildren init.value (List.mem_map_of_mem hinit)
    | block body =>
      dsimp only
      rw [hlists body (List.mem_singleton.mpr rfl)]
      exact sequence_matches below hchildren
    | ret value =>
      refine (below.here value (hchildren value List.mem_cons_self)).bind_of fun m _ => ?_
      exact hconst _
    | cond init test thenBranch elseBranch =>
      exact conditional_matches R below
        (fun child hchild => hchildren child (by simp [Node.children, Option.mem_def.mp hchild]))
        (hchildren test (by simp [Node.children]))
        (hchildren thenBranch (by simp [Node.children]))
        (fun child hchild => hchildren child (by simp [Node.children, Option.mem_def.mp hchild]))
    | assign target value declares =>
      exact assign_matches R hregion below (hchildren target List.mem_cons_self)
        (hchildren value (List.mem_cons_of_mem _ List.mem_cons_self)) declares
    | binary op left right =>
      refine (below.here left (hchildren left List.mem_cons_self)).bind_of fun l _ => ?_
      refine (below.here right
        (hchildren right (List.mem_cons_of_mem _ List.mem_cons_self))).bind_of fun r _ => ?_
      exact settle_matches R id _
    | not operand =>
      refine (below.here operand (hchildren operand List.mem_cons_self)).bind_of fun o _ => ?_
      exact settle_matches R id _
    | var name ty =>
      refine Run.matches_read fun state state' _ hrelated => ⟨?_, trivial⟩
      rw [R.lookup hrelated (hvar name ty hnode)]
    | subscript base index =>
      exact subscript_matches R below (hchildren base List.mem_cons_self)
        (hchildren index (List.mem_cons_of_mem _ List.mem_cons_self))
    | select base name => exact select_matches R below (hchildren base List.mem_cons_self) name
    | call callee args =>
      dsimp only
      rw [hlists args (List.mem_singleton.mpr rfl)]
      exact call_matches R below (hchildren callee List.mem_cons_self) fun arg harg =>
        hchildren arg (List.mem_cons_of_mem _ harg)

end

end Eval

/-! ### Evaluation -/

/-- One unit of fuel more matches if the levels below do; then everything is handed on. -/
theorem eval_succ_matches {program other : Program} {related : State → State → Prop}
    {named : String → Prop} {inside : NodeId → Prop} {P : Marked → Prop} {ev' : Evaluator}
    {fuel : Nat} {frame frame' : Frame} {id : NodeId} (hP : Hereditary program P)
    (R : Congruence named related) (hregion : program.Region other named inside)
    (below : Lockstep program lacking related inside P (eval program fuel) ev' fuel frame frame' id)
    (halike : program.ReadsAlike other id) (hrefers : ∀ ref, program.Refers id ref → inside ref)
    (hvar : ∀ name ty, program.node? id = some (.var name ty) → named name) :
    Run.Matches lacking related (State.Everywhere P) (eval program (fuel + 1) frame id)
      (Eval.rule other ev' fuel frame' id) (HandedOn P) := by
  have hands : ∀ state, State.Everywhere P state →
      (eval program (fuel + 1) frame id).Ensures state (HandedOn P) :=
    eval_everywhere hP (fuel + 1) frame id
  rw [eval_succ] at hands ⊢
  exact (Eval.rule_matches R hregion below halike hrefers hvar).ensures hands

/-- Frames in which the same calls are refused, up to what is then recorded. -/
structure Frame.Paired (related : State → State → Prop) (paired : Frame → Frame → Prop) : Prop where
  isFunction : ∀ {frame frame' : Frame}, paired frame frame' →
    frame'.isFunction = frame.isFunction
  sequence : ∀ {frame frame' : Frame}, paired frame frame' →
    paired frame.sequence frame'.sequence
  call : ∀ {frame frame' : Frame}, paired frame frame' →
    (frame.refusal? = none ∧ frame'.refusal? = none ∧ paired frame.callee frame'.callee) ∨
    ∃ limit limit', frame.refusal? = some limit ∧ frame'.refusal? = some limit' ∧
      ∀ (id : NodeId) (state state' : State), related state state' →
        related (state.record ⟨.callDepth limit, id⟩) (state'.record ⟨.callDepth limit', id⟩)

theorem Frame.paired_eq {related : State → State → Prop} {named : String → Prop}
    (R : Congruence named related) : Frame.Paired related Eq where
  isFunction h := by rw [h]
  sequence h := by rw [h]
  call := by
    intro frame frame' h
    subst h
    cases hlimit : frame.refusal? with
    | none => exact .inl ⟨rfl, rfl, rfl⟩
    | some limit => exact .inr ⟨limit, limit, rfl, rfl, fun _ _ _ hrelated => R.record hrelated _⟩

/-- Evaluation of any node matches, with any fuel, if the lengths of array types come out the same
and calls stay among the nodes that both programs hold alike. -/
theorem eval_matches {program other : Program} {related : State → State → Prop}
    {named : String → Prop} {inside : NodeId → Prop} {P : Marked → Prop}
    {paired : Frame → Frame → Prop} (R : Congruence named related)
    (hregion : program.Region other named inside) (hP : Hereditary program P)
    (hpaired : Frame.Paired related paired)
    (hbody : ∀ signature : Signature, P (.plain (.function signature)) → inside signature.body)
    (hstatic : ∀ fuel, (∀ frame frame' id, paired frame frame' → inside id →
      Run.Matches True related (State.Everywhere P) (eval program fuel frame id)
        (eval other fuel frame' id) (HandedOn P)) →
      ∀ length, inside length → eval other fuel {} length {} = eval program fuel {} length {})
    (fuel : Nat) {frame frame' : Frame} {id : NodeId} (hframes : paired frame frame')
    (hid : inside id) :
    Run.Matches True related (State.Everywhere P) (eval program fuel frame id)
      (eval other fuel frame' id) (HandedOn P) := by
  induction fuel generalizing frame frame' id with
  | zero => exact Run.matches_outOfFuel trivial
  | succ fuel ih =>
    have below : Lockstep program True related inside P (eval program fuel) (eval other fuel) fuel
        frame frame' id := by
      refine
        { isFunction := hpaired.isFunction hframes
          here := fun child hchild => ih hframes hchild
          sequence := fun child hchild => ih (hpaired.sequence hframes) hchild
          static := fun length hlength =>
            ⟨hstatic fuel (fun _ _ _ h hid => ih h hid) length hlength, .inl trivial⟩
          invoke := ?_
          enough := .inl trivial }
      intro signature args hfunction hargs
      -- the body is anywhere, so it is by the invariant that it lies inside
      rcases hpaired.call hframes with ⟨hadmitted, hadmitted', hcallee⟩ |
        ⟨limit, limit', hrefused, hrefused', hrecord⟩
      · exact Eval.invoke_matches_of_admitted R hargs hadmitted hadmitted'
          (ih hcallee (hbody signature hfunction))
      · exact Eval.invoke_matches_of_refused hrefused hrefused' (hrecord id)
    rw [eval_succ other]
    exact eval_succ_matches hP R hregion below (hregion.alike hid)
      (fun ref hrefers => hregion.closed hid hrefers) fun name ty hnode => hregion.var hid hnode

/-- Two programs that read alike evaluate alike, as long as no function leads out. -/
theorem Program.Region.eval_eq {program other : Program} {inside : NodeId → Prop}
    (hregion : program.Region other (fun _ => True) inside) {state : State}
    (hstate : state.Everywhere fun m => ∀ signature, m.value = .function signature →
      inside signature.body) (fuel : Nat) (frame : Frame) {id : NodeId} (hid : inside id) :
    eval other fuel frame id state = eval program fuel frame id state := by
  have hmatches := eval_matches congruence_eq hregion
    (hereditary_function program fun signature => inside signature.body)
    (Frame.paired_eq congruence_eq) (fun signature hfunction => hfunction signature rfl)
    (fun fuel hmatches length hlength => (Run.matches_eq_iff.mp
      (hmatches {} {} length rfl hlength) {} State.everywhere_empty).1) fuel
    (show frame = frame from rfl) hid
  exact (Run.matches_eq_iff.mp hmatches state hstate).1

end Arbor
