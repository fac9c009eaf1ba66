import Arbor.Proofs.Heredity
import Arbor.Proofs.References
import Arbor.Proofs.Scope

/-!
# What evaluation does to the state

Evaluation changes the state in few ways.  It records a fault behind the others,
it stores a variable under a name that some assignment starts from, and it runs a
body over locals of its own, which are gone afterwards.  So whatever is not
stored stays as it was, however deep the calls go, and what is bound stays bound.

Which names are stored, which bodies are run, and where faults are found, is read
off the nodes that evaluation can come to (`Program.Footprint`).  A body is run if
a function is at hand, so the values are followed along with the state: they keep
every hereditary property.  One walk through the rules of the evaluator shows both.

* `State.EvolvesWithin`, `State.Evolves` — these effects, one after another;
* `State.EvolvesWithin.get?_of_not_stored` — other variables keep what they are bound to;
* `State.EvolvesWithin.contains` — no variable is lost;
* `State.EvolvesWithin.exists_recorded` — what is recorded comes behind what was
  recorded before, and is found at the nodes that evaluation comes to;
* `eval_yields` — evaluation of any node, with any fuel;
* `eval_everywhere`, `eval_evolves` — what it says of the values alone, and of the
  state alone.
-/

namespace Arbor

open Eval

/-- The state becomes another one by recording faults at such nodes, storing variables of such
names, and running bodies over locals of their own. -/
inductive State.EvolvesWithin (located : NodeId → Prop) (stored : String → Prop) :
    State → State → Prop where
  | refl (state : State) : EvolvesWithin located stored state state
  | record {state middle : State} {fault : Located Fault} (hnode : located fault.node)
    (h : EvolvesWithin located stored state middle) :
    EvolvesWithin located stored state (middle.record fault)
  | store {state middle : State} {name : String} (scope : Scope) (m : Marked)
    (hname : stored name) (h : EvolvesWithin located stored state middle) :
    EvolvesWithin located stored state
      (scope.update (NameMap.insert (scope.variables middle) name m) middle)
  /-- The caller's locals come back after the body. -/
  | call {state middle final : State} {locals : Namespace}
    (h : EvolvesWithin located stored state middle)
    (hbody : EvolvesWithin located stored { middle with locals } final) :
    EvolvesWithin located stored state { final with locals := middle.locals }

/-- The same, with faults at whatever nodes. -/
abbrev State.Evolves (stored : String → Prop) : State → State → Prop :=
  State.EvolvesWithin (fun _ => True) stored

namespace State.EvolvesWithin

variable {located : NodeId → Prop} {stored : String → Prop} {state middle final : State}
  {name : String}

theorem trans (h : EvolvesWithin located stored state middle)
    (hnext : EvolvesWithin located stored middle final) :
    EvolvesWithin located stored state final := by
  induction hnext with
  | refl => exact h
  | record hnode _ ih => exact .record hnode (ih h)
  | store scope m hname _ ih => exact .store scope m hname (ih h)
  | call _ hbody ih _ => exact .call (ih h) hbody

theorem evolves (h : EvolvesWithin located stored state final) : state.Evolves stored final := by
  induction h with
  | refl => exact .refl _
  | record _ _ ih => exact .record trivial ih
  | store scope m hname _ ih => exact .store scope m hname ih
  | call _ _ ih ihbody => exact .call ih ihbody

/-- What is not stored stays bound as it was, or unbound. -/
theorem get?_of_not_stored (h : EvolvesWithin located stored state final) (hname : ¬ stored name)
    (scope : Scope) : (scope.variables final).get? name = (scope.variables state).get? name := by
  induction h generalizing scope with
  | refl => rfl
  | record _ _ ih =>
    rw [← ih scope]
    cases scope <;> rfl
  | @store _ middle other written m hother _ ih =>
    have hne : name ≠ other := fun heq => hname (heq ▸ hother)
    rw [← ih scope]
    exact (onlyChanged_update written other m middle).get?_eq fun h => hne h.2
  | call _ _ ih ihbody =>
    cases scope with
    | «local» => exact ih .local
    | global => exact (ihbody .global).trans (ih .global)

/-- A variable that is bound stays bound, in its scope. -/
theorem contains (h : EvolvesWithin located stored state final) (scope : Scope)
    (hbound : (scope.variables state).contains name = true) :
    (scope.variables final).contains name = true := by
  induction h generalizing scope with
  | refl => exact hbound
  | record _ _ ih =>
    have hkept := ih scope hbound
    cases scope <;> exact hkept
  | @store _ middle other written m _ _ ih =>
    have hkept := ih scope hbound
    unfold NameMap.contains at hkept ⊢
    by_cases hsame : scope = written ∧ name = other
    · obtain ⟨rfl, rfl⟩ := hsame
      rw [get?_update_self]
      rfl
    · rwa [(onlyChanged_update written other m middle).get?_eq hsame]
  | call _ _ ih ihbody =>
    cases scope with
    | «local» => exact ih .local hbound
    | global => exact ihbody .global (ih .global hbound)

/-- Faults are recorded behind those that are there, and found at such nodes. -/
theorem exists_recorded (h : EvolvesWithin located stored state final) :
    ∃ recorded : Array (Located Fault), final.faults = state.faults ++ recorded ∧
      ∀ fault ∈ recorded, located fault.node := by
  induction h with
  | refl => exact ⟨#[], (Array.append_empty ..).symm, nofun⟩
  | @record _ _ fault hnode _ ih =>
    obtain ⟨recorded, hfaults, hlocated⟩ := ih
    refine ⟨recorded.push fault, by rw [State.record, hfaults, Array.append_push], ?_⟩
    intro other hother
    rcases Array.mem_push.mp hother with hold | rfl
    · exact hlocated other hold
    · exact hnode
  | store scope m _ _ ih =>
    obtain ⟨recorded, hfaults, hlocated⟩ := ih
    refine ⟨recorded, ?_, hlocated⟩
    rw [← hfaults]
    cases scope <;> rfl
  | @call _ middle final _ _ _ ih ihbody =>
    obtain ⟨recorded, hfaults, hlocated⟩ := ih
    obtain ⟨more, hmore, hlocated'⟩ := ihbody
    have hfinal : final.faults = middle.faults ++ more := hmore
    refine ⟨recorded ++ more, ?_, fun fault hfault => ?_⟩
    · show final.faults = _
      rw [hfinal, hfaults, Array.append_assoc]
    · exact (Array.mem_append.mp hfault).elim (hlocated fault) (hlocated' fault)

/-- No fault is taken back. -/
theorem faults_eq (h : EvolvesWithin located stored state final) :
    ∃ recorded : Array (Located Fault), final.faults = state.faults ++ recorded := by
  obtain ⟨recorded, hfaults, -⟩ := h.exists_recorded
  exact ⟨recorded, hfaults⟩

end State.EvolvesWithin

/-- Evaluation that starts among these nodes stays among them, and stores only under such names; `P`
tells which functions can be at hand. -/
structure Program.Footprint (program : Program) (inside : NodeId → Prop) (stored : String → Prop)
    (P : Marked → Prop) : Prop where
  child : ∀ {id child : NodeId} {node : Node}, inside id → program.node? id = some node →
    child ∈ node.children program → inside child
  stored : ∀ {id target value root : NodeId} {declares : Bool} {name : String} {ty : Ty},
    inside id → program.node? id = some (.assign target value declares) →
    inside root → program.node? root = some (.var name ty) → stored name
  body : ∀ {id callee : NodeId} {args : Span NodeId} {signature : Signature},
    inside id → program.node? id = some (.call callee args) →
    P (.plain (.function signature)) → inside signature.body

/-- A state that evaluation has come to, from `origin` on. -/
structure State.Reached (located : NodeId → Prop) (stored : String → Prop) (P : Marked → Prop)
    (origin state : State) : Prop where
  everywhere : state.Everywhere P
  evolves : origin.EvolvesWithin located stored state

/-- What evaluation ends with, from `origin` on: a value with the property, but for its own marks,
and a state it has come to. -/
def State.Yields (located : NodeId → Prop) (stored : String → Prop) (P : Marked → Prop)
    (origin : State) (m : Marked) (final : State) : Prop :=
  m.cleaned.Everywhere P ∧ origin.Reached located stored P final

variable {program : Program} {inside : NodeId → Prop} {stored : String → Prop}
  {P : Marked → Prop} {origin state : State}

/-- With all nodes inside, everything may be stored. -/
theorem Program.footprint_true (program : Program) (P : Marked → Prop) :
    program.Footprint (fun _ => True) (fun _ => True) P :=
  ⟨fun _ _ _ => trivial, fun _ _ _ _ => trivial, fun _ _ _ => trivial⟩

theorem State.Everywhere.reached (h : state.Everywhere P) : state.Reached inside stored P state :=
  ⟨h, .refl state⟩

theorem State.Reached.trans {middle : State} (h : origin.Reached inside stored P middle)
    (h' : middle.Reached inside stored P state) : origin.Reached inside stored P state :=
  ⟨h'.everywhere, h.evolves.trans h'.evolves⟩

theorem State.Reached.record (h : origin.Reached inside stored P state) {fault : Located Fault}
    (hnode : inside fault.node) : origin.Reached inside stored P (state.record fault) :=
  ⟨h.everywhere.record fault, h.evolves.record hnode⟩

/-- A write to a place stores its variable. -/
theorem Place.store_eq_ok {place : Place} {m : Marked} {final : State}
    (h : place.store m state = .ok final) :
    ∃ new, final = place.scope.update
      (NameMap.insert (place.scope.variables state) place.root new) state := by
  obtain ⟨scope, root, steps⟩ := place
  cases hold : (scope.variables state).get? root with
  | none =>
    rw [Place.store] at h
    simp [hold] at h
  | some old =>
    rw [Place.store_eq m hold] at h
    cases hnew : replaceAt m.cleaned steps old with
    | error fault => simp [hnew, Except.map] at h
    | ok new =>
      simp only [hnew, Except.map, Except.ok.injEq] at h
      exact ⟨new, h.symm⟩

/-- A place in a variable that is bound and may be stored, with steps that are taken at such
nodes. -/
structure Eval.Place.Stands (located : NodeId → Prop) (stored : String → Prop) (state : State)
    (place : Place) : Prop where
  stored : stored place.root
  bound : (place.scope.variables state).contains place.root = true
  steps : ∀ step ∈ place.steps, located step.node

/-- A target is resolved to such a place, or fails at such a node. -/
def Eval.Place.StandsOrFails (located : NodeId → Prop) (stored : String → Prop) (state : State) :
    Except (Located Fault) Place → Prop
  | .ok place => place.Stands located stored state
  | .error fault => located fault.node

/-- Whatever is evaluated in between, the place stays. -/
theorem Eval.Place.StandsOrFails.of_evolves {final : State} {place : Except (Located Fault) Place}
    (h : StandsOrFails inside stored state place)
    (hevolves : state.EvolvesWithin inside stored final) :
    StandsOrFails inside stored final place := by
  cases place with
  | error fault => exact h
  | ok place => exact ⟨h.stored, hevolves.contains place.scope h.bound, h.steps⟩

/-! ### The rules -/

namespace Eval

variable {frame : Frame} {id : NodeId}

theorem bindVariable_reached (h : origin.Reached inside stored P state) {name : String}
    (hname : stored name) (frame : Frame) (declares : Bool) {m : Marked}
    (hm : m.cleaned.Everywhere P) :
    (bindVariable frame name declares m).Ensures state fun _ final =>
      origin.Reached inside stored P final := by
  refine Run.ensures_modify.mpr ⟨?_, .store _ m.cleaned hname h.evolves⟩
  exact h.everywhere.update _ ((h.everywhere.variables _).save hm name)

section Values

variable (hP : Hereditary program P)
include hP

theorem fail_yields (h : origin.Reached inside stored P state) (fault : Fault) (hid : inside id) :
    (Run.fail fault id).Ensures state (origin.Yields inside stored P) :=
  Run.ensures_fail.mpr ⟨hP.everywhere_undefined, h.record hid⟩

theorem undefined_yields (h : origin.Reached inside stored P state) :
    (pure Marked.undefined : Run Marked).Ensures state (origin.Yields inside stored P) :=
  Run.ensures_pure.mpr ⟨hP.everywhere_undefined, h⟩

theorem settle_yields (h : origin.Reached inside stored P state) (hid : inside id)
    {outcome : Except Fault Marked} (hok : ∀ m, outcome = .ok m → m.cleaned.Everywhere P) :
    (settle id outcome).Ensures state (origin.Yields inside stored P) := by
  cases outcome with
  | error fault => exact fail_yields hP h fault hid
  | ok m => exact Run.ensures_pure.mpr ⟨hok m rfl, h⟩

/-- What an operator yields is a scalar. -/
theorem settle_operator_yields (h : origin.Reached inside stored P state) (hid : inside id)
    {outcome : Except OperatorError Value} (hok : ∀ v, outcome = .ok v → v.isScalar = true) :
    (settle id ((outcome.map .plain).mapError .operator)).Ensures state
      (origin.Yields inside stored P) := by
  apply settle_yields hP h hid
  intro m hm
  cases outcome with
  | error error => cases hm
  | ok v =>
    have hv : (Marked.plain v).Everywhere P := hP.everywhere_scalar (hok v rfl)
    cases hm
    exact hv

theorem writePlace_reached (h : origin.Reached inside stored P state)
    {place : Except (Located Fault) Place} (hplace : Place.StandsOrFails inside stored state place)
    {m : Marked} (hm : m.cleaned.Everywhere P) :
    (writePlace place m).Ensures state fun _ final => origin.Reached inside stored P final := by
  intro _ final hwrite
  rw [writePlace_apply, Option.some.injEq, Prod.mk.injEq] at hwrite
  obtain ⟨-, rfl⟩ := hwrite
  cases place with
  | error fault => exact h.record hplace
  | ok p =>
    simp only [Except.bind]
    cases hstore : p.store m state with
    | error fault =>
      obtain ⟨step, hstep, hnode⟩ := Place.exists_step_of_store_eq_error hplace.bound hstore
      exact h.record (hnode ▸ hplace.steps step hstep)
    | ok written =>
      have heverywhere : written.Everywhere P :=
        Place.store_everywhere hP h.everywhere hm hstore
      obtain ⟨new, rfl⟩ := Place.store_eq_ok hstore
      exact ⟨heverywhere, .store p.scope new hplace.stored h.evolves⟩

end Values

section Below

variable {fuel : Nat}
  (hev : ∀ frame child, inside child → ∀ state, state.Everywhere P →
    (eval program fuel frame child).Ensures state (state.Yields inside stored P))
include hev

/-- A node below, from a state that was reached. -/
theorem node_yields (h : origin.Reached inside stored P state) (frame : Frame) {child : NodeId}
    (hchild : inside child) :
    (eval program fuel frame child).Ensures state (origin.Yields inside stored P) := by
  refine (hev frame child hchild state h.everywhere).imp fun m final hpost => ?_
  obtain ⟨hm, hfinal⟩ := hpost
  exact ⟨hm, h.trans hfinal⟩

/-- What follows a node runs with all that the node yields. -/
theorem bind_reached {α : Type} {next : Marked → Run α} {post : α → State → Prop}
    (h : origin.Reached inside stored P state) (frame : Frame) {child : NodeId}
    (hchild : inside child)
    (hnext : ∀ m middle, m.cleaned.Everywhere P → origin.Reached inside stored P middle →
      (next m).Ensures middle post) :
    (eval program fuel frame child >>= next).Ensures state post := by
  rw [Run.ensures_bind]
  refine (node_yields hev h frame hchild).imp fun m middle hpost => ?_
  exact hnext m middle hpost.1 hpost.2

theorem nodes_reached (h : origin.Reached inside stored P state) (frame : Frame) {ids : List NodeId}
    (hids : ∀ child ∈ ids, inside child) :
    (ids.mapM (eval program fuel frame)).Ensures state fun values final =>
      (values.length = ids.length ∧ ∀ value ∈ values, value.cleaned.Everywhere P) ∧
        origin.Reached inside stored P final := by
  have hnode : ∀ child ∈ ids, ∀ state, origin.Reached inside stored P state →
      (eval program fuel frame child).Ensures state (origin.Yields inside stored P) :=
    fun child hchild state hstate => node_yields hev hstate frame (hids child hchild)
  refine (Run.ensures_mapM (fun _ value => value.cleaned.Everywhere P) hnode h).imp ?_
  intro values final hpost
  obtain ⟨hvalues, hfinal⟩ := hpost
  refine ⟨⟨hvalues.length_eq.symm, fun value hvalue => ?_⟩, hfinal⟩
  obtain ⟨_, -, hclean⟩ := exists_of_mem_right hvalues hvalue
  exact hclean

/-- A target is resolved to a place in a variable that is bound and may be stored. -/
theorem resolve_reached (hfoot : program.Footprint inside stored P)
    (hroot : ∀ {root : NodeId} {name : String} {ty : Ty}, inside root →
      program.node? root = some (.var name ty) → stored name)
    (h : origin.Reached inside stored P state) (depth : Nat) {target : NodeId}
    (htarget : inside target) :
    (resolve program (eval program fuel) frame depth target).run.Ensures state fun place final =>
      Place.StandsOrFails inside stored final place ∧ origin.Reached inside stored P final := by
  have hplain : ∀ (outcome : Except (Located Fault) Place) (final : State),
      Place.StandsOrFails inside stored final outcome → origin.Reached inside stored P final →
      (pure outcome : Run (Except (Located Fault) Place)).Ensures final fun place final =>
        Place.StandsOrFails inside stored final place ∧ origin.Reached inside stored P final :=
    fun outcome final houtcome hfinal => Run.ensures_pure.mpr ⟨houtcome, hfinal⟩
  induction depth generalizing state target with
  | zero => simp
  | succ depth ih =>
    rw [run_resolve_succ]
    cases hnode : program.node? target with
    | none => exact hplain _ _ htarget h
    | some node =>
      have hchildren : ∀ child ∈ node.children program, inside child :=
        fun child hchild => hfoot.child htarget hnode hchild
      cases node with
      | var name ty =>
        rw [Run.ensures_bind, Run.ensures_get]
        split
        · next scope hscope =>
          have hbound : (scope.variables state).contains name = true := by
            rw [NameMap.contains, get?_of_boundIn? hscope]
            rfl
          exact hplain _ _ ⟨hroot htarget hnode, hbound, nofun⟩ h
        · exact hplain _ _ htarget h
      | subscript base index =>
        have hindex := hchildren index (List.mem_cons_of_mem _ List.mem_cons_self)
        rw [Run.ensures_bind]
        refine (ih h (hchildren base List.mem_cons_self)).imp fun outcome middle hpost => ?_
        obtain ⟨houtcome, hmiddle⟩ := hpost
        cases outcome with
        | error fault => exact hplain _ _ houtcome hmiddle
        | ok place =>
          -- the index runs on from here, so that its effects are known by themselves
          refine bind_reached hev hmiddle.everywhere.reached frame hindex
            fun m final _ hindexed => ?_
          have hplace : Place.StandsOrFails inside stored final (.ok place) :=
            houtcome.of_evolves hindexed.evolves
          split
          · refine hplain _ _ ⟨hplace.stored, hplace.bound, ?_⟩ (hmiddle.trans hindexed)
            exact List.forall_mem_append.mpr
              ⟨hplace.steps, List.forall_mem_singleton.mpr htarget⟩
          · exact hplain _ _ htarget (hmiddle.trans hindexed)
      | select base name =>
        rw [Run.ensures_bind]
        refine (ih h (hchildren base List.mem_cons_self)).imp fun outcome middle hpost => ?_
        obtain ⟨houtcome, hmiddle⟩ := hpost
        cases outcome with
        | error fault => exact hplain _ _ houtcome hmiddle
        | ok place =>
          refine hplain _ _ ⟨houtcome.stored, houtcome.bound, ?_⟩ hmiddle
          exact List.forall_mem_append.mpr
            ⟨houtcome.steps, List.forall_mem_singleton.mpr htarget⟩
      | _ => exact hplain _ _ htarget h

variable (hP : Hereditary program P)
include hP

theorem arrayLiteral_yields (h : origin.Reached inside stored P state) (hid : inside id) (elem : Ty)
    (length : NodeId) {elements : List NodeId} (helements : ∀ child ∈ elements, inside child) :
    (arrayLiteral (eval program fuel) frame id elem length elements).Ensures state
      (origin.Yields inside stored P) := by
  rw [arrayLiteral, Run.ensures_bind, Run.ensures_sizing]
  intro outcome hlength
  cases outcome with
  | error cause => exact fail_yields hP h _ hid
  | ok n =>
    dsimp only
    split
    · rw [Run.ensures_bind, Run.ensures_sizing]
      intro outcome hitems
      cases outcome with
      | error cause => exact fail_yields hP h _ hid
      | ok items =>
        obtain ⟨hlen, hcopies⟩ := defaultItems_eq_ok hitems
        refine Run.ensures_pure.mpr ⟨?_, h⟩
        apply Marked.everywhere_list (hP.list ⟨fuel, by rw [hlength, hlen]⟩)
        intro item hitem
        exact hP.everywhere_cleaned (defaultValue_everywhere hP (hcopies item hitem))
    · split
      · exact fail_yields hP h _ hid
      · next hcount =>
        rw [Run.ensures_bind]
        refine (nodes_reached hev h frame helements).imp fun items final hpost => ?_
        obtain ⟨⟨hlen, hitems⟩, hfinal⟩ := hpost
        refine Run.ensures_pure.mpr ⟨?_, hfinal⟩
        exact Marked.everywhere_list
          (hP.list ⟨fuel, by rw [hlength, hlen, not_not.mp hcount]⟩) hitems

theorem literalField_yields (h : origin.Reached inside stored P state) (hid : inside id)
    {inits : List FieldInit} (hinits : ∀ init ∈ inits, inside init.value) (name : String)
    (ty : Ty) :
    (literalField (eval program fuel) frame id inits name ty).Ensures state
      (origin.Yields inside stored P) := by
  unfold literalField
  split
  · next init hinit =>
    exact node_yields hev h frame (hinits init (List.mem_of_find?_eq_some hinit))
  · rw [Run.ensures_bind, Run.ensures_sizing]
    intro outcome hzero
    cases outcome with
    | error cause => exact fail_yields hP h _ hid
    | ok zero =>
      exact Run.ensures_pure.mpr ⟨hP.everywhere_cleaned (defaultValue_everywhere hP hzero), h⟩

theorem recordLiteral_yields (h : origin.Reached inside stored P state) (hid : inside id)
    (fields : Entries Ty) {inits : List FieldInit} (hinits : ∀ init ∈ inits, inside init.value) :
    (recordLiteral (eval program fuel) frame id fields inits).Ensures state
      (origin.Yields inside stored P) := by
  rw [recordLiteral, Run.ensures_bind]
  refine (Run.ensures_mapM
    (fun field value => field.1 = value.1 ∧ value.2.cleaned.Everywhere P)
    (fun field _ state hstate => ?_) h).imp fun values final hpost => ?_
  · rw [Run.ensures_bind]
    refine (literalField_yields hev hP hstate hid hinits field.1 field.2).imp
      fun m final hpost => ?_
    obtain ⟨hm, hfinal⟩ := hpost
    exact Run.ensures_pure.mpr ⟨⟨rfl, hm⟩, hfinal⟩
  · obtain ⟨hvalues, hfinal⟩ := hpost
    have hnames := Entries.names_eq_of_forall₂ hvalues fun _ _ hrel => hrel.1
    refine Run.ensures_pure.mpr ⟨Marked.everywhere_record (hP.record hnames) ?_, hfinal⟩
    intro value hvalue
    obtain ⟨_, -, -, hcontent⟩ := exists_of_mem_right hvalues hvalue
    exact hcontent

theorem sequence_yields (h : origin.Reached inside stored P state) {body : List NodeId}
    (hbody : ∀ child ∈ body, inside child) :
    (sequence (eval program fuel) frame body).Ensures state (origin.Yields inside stored P) := by
  induction body generalizing state with
  | nil => exact undefined_yields hP h
  | cons statement rest ih =>
    obtain ⟨hstatement, hrest⟩ := List.forall_mem_cons.mp hbody
    rw [sequence]
    refine bind_reached hev h frame hstatement fun m middle hm hmiddle => ?_
    split
    · exact Run.ensures_pure.mpr ⟨hm, hmiddle⟩
    · exact ih hmiddle hrest

theorem conditional_yields (h : origin.Reached inside stored P state) {init : Option NodeId}
    {test thenBranch : NodeId} {elseBranch : Option NodeId}
    (hinit : ∀ child ∈ init, inside child) (htest : inside test) (hthen : inside thenBranch)
    (helse : ∀ child ∈ elseBranch, inside child) :
    (conditional (eval program fuel) frame init test thenBranch elseBranch).Ensures state
      (origin.Yields inside stored P) := by
  have hchoose : ∀ state, origin.Reached inside stored P state →
      (choose (eval program fuel) frame test thenBranch elseBranch).Ensures state
        (origin.Yields inside stored P) := by
    intro state hstate
    unfold choose
    refine bind_reached hev hstate frame htest fun outcome middle _ hmiddle => ?_
    split
    · exact node_yields hev hmiddle frame hthen
    · cases elseBranch with
      | none => exact undefined_yields hP hmiddle
      | some branch => exact node_yields hev hmiddle frame (helse branch rfl)
    · exact fail_yields hP hmiddle _ htest
  rw [conditional, Run.ensures_bind]
  cases init with
  | none => exact Run.ensures_pure.mpr (hchoose state h)
  | some statement =>
    refine Run.ensures_discard.mpr ((node_yields hev h frame (hinit statement rfl)).imp ?_)
    exact fun m middle hpost => hchoose middle hpost.2

theorem subscript_yields (h : origin.Reached inside stored P state) (hid : inside id)
    {base index : NodeId} (hbase : inside base) (hindex : inside index) :
    (subscript (eval program fuel) frame id base index).Ensures state
      (origin.Yields inside stored P) := by
  rw [subscript]
  refine bind_reached hev h frame hbase fun b middle hb hmiddle => ?_
  refine bind_reached hev hmiddle frame hindex fun i final _ hfinal => ?_
  split
  · exact fail_yields hP hfinal _ hid
  · exact settle_yields hP hfinal hid fun m hm =>
      hP.everywhere_cleaned (element_everywhere hb hm)

theorem select_yields (h : origin.Reached inside stored P state) (hid : inside id) {base : NodeId}
    (hbase : inside base) (name : String) :
    (select (eval program fuel) frame id base name).Ensures state
      (origin.Yields inside stored P) := by
  rw [select]
  refine bind_reached hev h frame hbase fun b middle hb hmiddle => ?_
  split
  · exact fail_yields hP hmiddle _ hid
  · exact settle_yields hP hmiddle hid fun m hm =>
      hP.everywhere_cleaned (field_everywhere hb hm)

/-- A body runs over its parameters and leaves the caller's locals alone. -/
theorem invoke_yields (h : origin.Reached inside stored P state) (hid : inside id)
    {signature : Signature} (hbody : inside signature.body) {args : List Marked}
    (hargs : ∀ arg ∈ args, arg.cleaned.Everywhere P) :
    (invoke (eval program fuel) frame id signature args).Ensures state
      (origin.Yields inside stored P) := by
  have hlocals : (parameterScope signature args).Everywhere P := by
    apply Namespace.everywhere_ofPairs
    intro pair hpair
    exact hargs pair.2 (List.of_mem_zip hpair).2
  unfold invoke
  split
  · exact fail_yields hP h _ hid
  · rw [Run.ensures_bind, withLocals, Run.ensures_bind, Run.ensures_get, Run.ensures_bind,
      Run.ensures_set, Run.ensures_bind]
    have hcallee : State.Everywhere P { state with locals := parameterScope signature args } :=
      ⟨hlocals, h.everywhere.globals⟩
    refine (hev frame.callee signature.body hbody _ hcallee).imp fun m final hpost => ?_
    obtain ⟨hm, hfinal⟩ := hpost
    simp only [Run.ensures_bind, Run.ensures_modify, Run.ensures_pure]
    exact ⟨hm, ⟨h.everywhere.locals, hfinal.everywhere.globals⟩, .call h.evolves hfinal.evolves⟩

theorem call_yields (h : origin.Reached inside stored P state) (hid : inside id) {callee : NodeId}
    {args : List NodeId} (hcallee : inside callee) (hargs : ∀ arg ∈ args, inside arg)
    (hbody : ∀ signature : Signature, P (.plain (.function signature)) → inside signature.body) :
    (call (eval program fuel) frame id callee args).Ensures state
      (origin.Yields inside stored P) := by
  rw [call]
  refine bind_reached hev h frame hcallee fun f middle hf hmiddle => ?_
  split
  · exact fail_yields hP hmiddle _ hid
  · split
    · exact fail_yields hP hmiddle _ hid
    · next signature hsignature =>
      split
      · exact fail_yields hP hmiddle _ hid
      · have hfunction : P (.plain (.function signature)) := by
          have hself := hf.self
          rwa [Marked.cleaned, Value.signature?_ty_eq_some_iff.mp hsignature] at hself
        rw [Run.ensures_bind]
        refine (nodes_reached hev hmiddle frame hargs).imp fun values final hpost => ?_
        obtain ⟨⟨-, hvalues⟩, hfinal⟩ := hpost
        exact invoke_yields hev hP hfinal hid (hbody signature hfunction) hvalues

variable (hfoot : program.Footprint inside stored P)
include hfoot

theorem assign_yields
    (hroot : ∀ {root : NodeId} {name : String} {ty : Ty}, inside root →
      program.node? root = some (.var name ty) → stored name)
    (h : origin.Reached inside stored P state) (hid : inside id) {target value : NodeId}
    (htarget : inside target) (hvalue : inside value) (declares : Bool) :
    (assign program (eval program fuel) fuel frame id target value declares).Ensures state
      (origin.Yields inside stored P) := by
  have hplace : (assignPlace program (eval program fuel) fuel frame target value).Ensures state
      fun _ final => origin.Reached inside stored P final := by
    rw [assignPlace, Run.ensures_bind]
    refine (resolve_reached hev hfoot hroot h fuel htarget).imp fun place middle hpost => ?_
    obtain ⟨hplace, hmiddle⟩ := hpost
    refine bind_reached hev hmiddle.everywhere.reached frame hvalue fun m final hm hvalued => ?_
    exact writePlace_reached hP (hmiddle.trans hvalued) (hplace.of_evolves hvalued.evolves) hm
  unfold assign
  split
  · next hnode =>
    refine bind_reached hev h frame hvalue fun m middle hm hmiddle => ?_
    rw [Run.ensures_bind]
    exact (bindVariable_reached hmiddle (hroot htarget hnode) frame declares hm).imp
      fun _ _ => undefined_yields hP
  · exact Run.ensures_bind.mpr (hplace.imp fun _ _ => undefined_yields hP)
  · exact Run.ensures_bind.mpr (hplace.imp fun _ _ => undefined_yields hP)
  · exact Run.ensures_bind.mpr (Run.ensures_report.mpr (undefined_yields hP (h.record hid)))
  · exact Run.ensures_bind.mpr (Run.ensures_report.mpr (undefined_yields hP (h.record hid)))

/-- One level of evaluation, from the levels below. -/
theorem rule_yields (hid : inside id) (h : origin.Reached inside stored P state) :
    (rule program (eval program fuel) fuel frame id).Ensures state
      (origin.Yields inside stored P) := by
  unfold rule
  cases hnode : program.node? id with
  | none => exact fail_yields hP h _ hid
  | some node =>
    have hchildren : ∀ child ∈ node.children program, inside child :=
      fun child hchild => hfoot.child hid hnode hchild
    have hscalar : ∀ v : Value, v.isScalar = true →
        (pure (.plain v) : Run Marked).Ensures state (origin.Yields inside stored P) :=
      fun v hv => Run.ensures_pure.mpr ⟨hP.everywhere_scalar hv, h⟩
    cases node with
    | int n => exact hscalar _ rfl
    | string s => exact hscalar _ rfl
    | bool b => exact hscalar _ rfl
    | nil => exact undefined_yields hP h
    | arrayLiteral elem length elements =>
      exact arrayLiteral_yields hev hP h hid elem length hchildren
    | recordLiteral fields inits =>
      exact recordLiteral_yields hev hP h hid fields fun init hinit =>
        hchildren init.value (List.mem_map_of_mem hinit)
    | block body => exact sequence_yields hev hP h hchildren
    | ret value =>
      have hvalue := hchildren value List.mem_cons_self
      refine bind_reached hev h frame hvalue fun m final hm hfinal => ?_
      exact Run.ensures_pure.mpr ⟨hm, hfinal⟩
    | cond init test thenBranch elseBranch =>
      exact conditional_yields hev hP h
        (fun child hchild => hchildren child (by simp [Node.children, Option.mem_def.mp hchild]))
        (hchildren test (by simp [Node.children]))
        (hchildren thenBranch (by simp [Node.children]))
        (fun child hchild => hchildren child (by simp [Node.children, Option.mem_def.mp hchild]))
    | assign target value declares =>
      have hroot : ∀ {root : NodeId} {name : String} {ty : Ty}, inside root →
          program.node? root = some (.var name ty) → stored name :=
        fun hroot hvar => hfoot.stored hid hnode hroot hvar
      exact assign_yields hev hP hfoot hroot h hid (hchildren target List.mem_cons_self)
        (hchildren value (List.mem_cons_of_mem _ List.mem_cons_self)) declares
    | binary op left right =>
      have hleft := hchildren left List.mem_cons_self
      have hright := hchildren right (List.mem_cons_of_mem _ List.mem_cons_self)
      refine bind_reached hev h frame hleft fun l middle _ hmiddle => ?_
      refine bind_reached hev hmiddle frame hright fun r final _ hfinal => ?_
      exact settle_operator_yields hP hfinal hid fun v hv => Operator.apply_isScalar hv
    | not operand =>
      have hoperand := hchildren operand List.mem_cons_self
      refine bind_reached hev h frame hoperand fun o final _ hfinal => ?_
      exact settle_operator_yields hP hfinal hid fun v hv => Operator.applyNot_isScalar hv
    | var name ty =>
      rw [Run.ensures_bind, Run.ensures_get, Run.ensures_pure]
      refine ⟨?_, h⟩
      cases hm : state.lookup name with
      | none => exact hP.everywhere_undefined
      | some m => exact hP.everywhere_cleaned (h.everywhere.lookup hm)
    | subscript base index =>
      exact subscript_yields hev hP h hid (hchildren base List.mem_cons_self)
        (hchildren index (List.mem_cons_of_mem _ List.mem_cons_self))
    | select base name => exact select_yields hev hP h hid (hchildren base List.mem_cons_self) name
    | call callee args =>
      exact call_yields hev hP h hid (hchildren callee List.mem_cons_self)
        (fun arg harg => hchildren arg (List.mem_cons_of_mem _ harg))
        fun signature hfunction => hfoot.body hid hnode hfunction

end Below

end Eval

/-! ### Evaluation -/

/-- Evaluation inside a footprint keeps a hereditary property, has the effects that the footprint
allows, and no other. -/
theorem eval_yields (hP : Hereditary program P) (hfoot : program.Footprint inside stored P)
    (fuel : Nat) (frame : Frame) {id : NodeId} (hid : inside id) (hstate : state.Everywhere P) :
    (eval program fuel frame id).Ensures state (state.Yields inside stored P) := by
  induction fuel generalizing frame id state with
  | zero => exact Run.ensures_outOfFuel.mpr trivial
  | succ fuel ih =>
    rw [eval_succ]
    exact Eval.rule_yields (fun frame child hchild state hstate => ih frame hchild hstate) hP hfoot
      hid hstate.reached

theorem Evaluates.yields {frame : Frame} {id : NodeId} {m : Marked} {final : State}
    (h : Evaluates program frame id state m final) (hP : Hereditary program P)
    (hfoot : program.Footprint inside stored P) (hid : inside id) (hstate : state.Everywhere P) :
    state.Yields inside stored P m final := by
  obtain ⟨fuel, hfuel⟩ := h
  exact eval_yields hP hfoot fuel frame hid hstate m final hfuel

/-- Evaluation hands a hereditary property on, from the variables to the variables and to the
value that comes out. -/
theorem eval_everywhere (hP : Hereditary program P) (fuel : Nat) :
    (eval program fuel).HandsOn P := by
  intro frame id state hstate
  have hyields : (eval program fuel frame id).Ensures state
      (state.Yields (fun _ => True) (fun _ => True) P) :=
    eval_yields hP (program.footprint_true P) fuel frame trivial hstate
  exact hyields.imp fun m final hpost => ⟨hpost.1, hpost.2.everywhere⟩

/-- The state only changes as the footprint allows, wherever faults are found. -/
theorem eval_evolves (hP : Hereditary program P) (hfoot : program.Footprint inside stored P)
    (fuel : Nat) (frame : Frame) {id : NodeId} (hid : inside id) (hstate : state.Everywhere P) :
    (eval program fuel frame id).Ensures state fun _ final => state.Evolves stored final :=
  (eval_yields hP hfoot fuel frame hid hstate).imp fun _ _ hpost => hpost.2.evolves.evolves

end Arbor
