import Arbor.Proofs.Blame
import Arbor.Proofs.Body
import Arbor.Proofs.Scope

/-!
# Type soundness

A checked body computes with values of the types that the checker found.

Variables have to be bound to values of their types before the body runs
(`State.Fits`).  Then the first fault is excusable, an arithmetic failure or an
index or length out of range, and as long as no fault is recorded, variables keep
their types and the body returns a value of the result type.

* `Expression.sound` — an accepted expression yields a value of its type;
* `Statement.sound` — an accepted statement keeps the types of variables;
* `checked_body_sound` — both, for a body as a whole.
-/

namespace Arbor

open Eval Filter

/-! ### Variables of their types -/

/-- Every named variable is found, locals first, with a value of its type. -/
def State.Bound (state : State) (G : String → Ty) (named : String → Prop) : Prop :=
  ∀ name, named name → ∃ m, state.lookup name = some m ∧ m.value.Conforms (G name)

/-- Every binding of either scope is one that `origin` has already, or gives a named variable a
value of its type. -/
def State.Keeps (state : State) (G : String → Ty) (named : String → Prop) (origin : State) : Prop :=
  ∀ (scope : Scope) (name : String) (m : Marked), (scope.variables state).get? name = some m →
    named name ∧ m.value.Conforms (G name) ∨ (scope.variables origin).get? name = some m

/-- What holds of the variables while a checked body runs from `origin`, as long as there is no
fault. -/
structure State.Fits (state : State) (G : String → Ty) (named : String → Prop) (origin : State) :
    Prop where
  clean : state.Everywhere (·.isClean = true)
  bound : state.Bound G named
  kept : state.Keeps G named origin

variable {G : String → Ty} {named : String → Prop} {origin state : State}

namespace State.Fits

theorem lookup (h : state.Fits G named origin) {name : String} (hnamed : named name) :
    ∃ m, state.lookup name = some m ∧ m.Fits (G name) := by
  obtain ⟨m, hm, hconforms⟩ := h.bound name hnamed
  exact ⟨m, hm, hconforms, h.clean.lookup hm⟩

/-- Faults do not matter. -/
theorem of_scopes {locals globals : Namespace} (faults faults' : Array (Located Fault))
    (h : State.Fits ⟨locals, globals, faults⟩ G named origin) :
    State.Fits ⟨locals, globals, faults'⟩ G named origin := by
  refine ⟨⟨h.clean.locals, h.clean.globals⟩, h.bound, fun scope => ?_⟩
  have hkept := h.kept scope
  cases scope <;> exact hkept

/-- A named variable may get a value of its type, in either scope. -/
theorem store (h : state.Fits G named origin) {name : String} (hnamed : named name) {m : Marked}
    (hm : m.Fits (G name)) (scope : Scope) :
    (scope.update (NameMap.insert (scope.variables state) name m) state).Fits G named origin := by
  have honly := onlyChanged_update scope name m state
  refine ⟨h.clean.update scope ((h.clean.variables scope).insert hm.clean name),
    fun other hother => ?_, fun scope' other m' hm' => ?_⟩
  · by_cases hname : other = name
    · subst hname
      rcases lookup_update scope other m state with hnew | hold
      · exact ⟨m, hnew, hm.conforms⟩
      · rw [hold]
        exact h.bound other hother
    · rw [honly.lookup hname]
      exact h.bound other hother
  · by_cases hscope : scope' = scope
    · subst hscope
      by_cases hname : other = name
      · subst hname
        rw [get?_update_self, Option.some.injEq] at hm'
        exact .inl ⟨hnamed, hm' ▸ hm.conforms⟩
      · rw [honly.names other hname] at hm'
        exact h.kept scope' other m' hm'
    · rw [honly.scopes scope' hscope] at hm'
      exact h.kept scope' other m' hm'

end State.Fits

/-! ### Expressions -/

/-- The evaluator computes values of the type at the node, from variables of their types. -/
def Evaluator.Sound (G : String → Ty) (named : String → Prop) (origin : State) (ev : Evaluator)
    (id : NodeId) (ty : Ty) : Prop :=
  ∀ frame locals globals, (ev frame id).Computes locals globals
    (State.Fits ⟨locals, globals, #[]⟩ G named origin) fun m => m.Fits ty

theorem Evaluator.Sound.of_agrees {ev : Evaluator} {id : NodeId} {ty other : Ty}
    (h : ev.Sound G named origin id ty) (hagree : ty.agrees other = true) :
    ev.Sound G named origin id other :=
  fun frame locals globals => (h frame locals globals).imp fun _ hfits => hfits.of_agrees hagree

section Rules

variable {program : Program} {ev : Evaluator} {fuel : Nat} {id : NodeId} {ty : Ty}

theorem int_sound {n : Int64} (hnode : program.node? id = some (.int n)) :
    (Eval.rule program ev fuel).Sound G named origin id .int := by
  intro frame locals globals
  rw [Eval.rule, hnode]
  exact Run.computes_pure fun _ => Marked.fits_int n

theorem string_sound {s : String} (hnode : program.node? id = some (.string s)) :
    (Eval.rule program ev fuel).Sound G named origin id .string := by
  intro frame locals globals
  rw [Eval.rule, hnode]
  exact Run.computes_pure fun _ => Marked.fits_string s

theorem bool_sound {b : Bool} (hnode : program.node? id = some (.bool b)) :
    (Eval.rule program ev fuel).Sound G named origin id .bool := by
  intro frame locals globals
  rw [Eval.rule, hnode]
  exact Run.computes_pure fun _ => Marked.fits_bool b

/-- The elements of an array literal are all given. -/
theorem arrayLiteral_sound {elem : Ty} {length : NodeId} {elements : Span NodeId}
    (hnode : program.node? id = some (.arrayLiteral elem length elements))
    (hlength : (staticLength ev length).run = some (.ok (program.children elements).length))
    (hne : program.children elements ≠ [])
    (helements : ∀ element ∈ program.children elements, ev.Sound G named origin element elem) :
    (Eval.rule program ev fuel).Sound G named origin id (.array elem length) := by
  intro frame locals globals
  rw [Eval.rule, hnode]
  dsimp only
  rw [arrayLiteral, Run.sizing_bind hlength]
  dsimp only
  rw [if_neg (by simpa using hne), if_neg (not_not_intro rfl)]
  refine (Run.Computes.mapM fun element helement => helements element helement frame locals
    globals).bind fun items => Run.computes_pure fun hyps => ?_
  apply Marked.fits_list
  intro item hitem
  obtain ⟨_, -, hfits⟩ := exists_of_mem_right hyps.2 hitem
  exact hfits.cleaned

/-- The elements of an array literal are all left out. -/
theorem arrayLiteral_sound_of_default {elem : Ty} {length : NodeId} {elements : Span NodeId}
    {zero : Marked} (hnode : program.node? id = some (.arrayLiteral elem length elements))
    (hempty : program.children elements = [])
    (hzero : (defaultValue (staticLength ev) (.array elem length)).run = some (.ok zero))
    (hfits : zero.Fits (.array elem length)) :
    (Eval.rule program ev fuel).Sound G named origin id (.array elem length) := by
  intro frame locals globals
  rw [Eval.rule, hnode]
  dsimp only
  rw [defaultValue_array] at hzero
  obtain ⟨n, hn, hrest⟩ := Sizing.bind_eq_ok_iff.mp hzero
  obtain ⟨items, hitems, hlist⟩ := Sizing.bind_eq_ok_iff.mp hrest
  cases hlist
  rw [arrayLiteral, Run.sizing_bind hn]
  dsimp only
  rw [if_pos (by rw [hempty]; rfl), Run.sizing_bind hitems]
  exact Run.computes_pure fun _ => hfits

/-- A field is initialized by a value of its type, or has a default value. -/
def FieldSound (G : String → Ty) (named : String → Prop) (origin : State) (ev : Evaluator)
    (inits : List FieldInit) (field : String × Ty) : Prop :=
  match inits.find? (·.name == field.1) with
  | some init => ev.Sound G named origin init.value field.2
  | none => ∃ zero, (defaultValue (staticLength ev) field.2).run = some (.ok zero) ∧
      zero.Fits field.2

theorem literalField_computes {inits : List FieldInit} {field : String × Ty}
    (h : FieldSound G named origin ev inits field) (frame : Frame) (locals globals : Namespace) :
    (literalField ev frame id inits field.1 field.2).Computes locals globals
      (State.Fits ⟨locals, globals, #[]⟩ G named origin) fun m => m.Fits field.2 := by
  unfold FieldSound at h
  unfold literalField
  cases hinit : inits.find? (·.name == field.1) with
  | some init =>
    rw [hinit] at h
    exact h frame locals globals
  | none =>
    rw [hinit] at h
    obtain ⟨zero, hzero, hfits⟩ := h
    dsimp only
    rw [Run.sizing_bind hzero]
    exact Run.computes_pure fun _ => hfits

theorem recordLiteral_sound {fields : Entries Ty} {inits : Span FieldInit}
    (hnode : program.node? id = some (.recordLiteral fields inits))
    (hnames : fields.names.Nodup)
    (hfields : ∀ field ∈ fields, FieldSound G named origin ev (program.fieldInits inits) field) :
    (Eval.rule program ev fuel).Sound G named origin id (.record fields) := by
  intro frame locals globals
  rw [Eval.rule, hnode]
  have hvalue : ∀ field ∈ fields, Run.Computes locals globals (do
      let m ← literalField ev frame id (program.fieldInits inits) field.1 field.2
      pure (field.1, m)) (State.Fits ⟨locals, globals, #[]⟩ G named origin)
      fun value => field.1 = value.1 ∧ value.2.Fits field.2 := fun field hfield =>
    (literalField_computes (hfields field hfield) frame locals globals).bind fun m =>
      Run.computes_pure fun hyps => ⟨rfl, hyps.2⟩
  refine (Run.Computes.mapM hvalue).bind fun values => Run.computes_pure fun hyps => ?_
  refine Marked.fits_record hnames
    (Entries.names_eq_of_forall₂ hyps.2 fun _ _ hrel => hrel.1) fun value hmem => ?_
  obtain ⟨field, hfield, hname, hfits⟩ := exists_of_mem_right hyps.2 hmem
  exact ⟨field, hfield, hname, hfits.cleaned⟩

theorem binary_sound {op : Operator} {left right : NodeId} {t t' : Ty}
    (hnode : program.node? id = some (.binary op left right))
    (hleft : ev.Sound G named origin left t) (hright : ev.Sound G named origin right t')
    (hagree : t.agrees t' = true) (hdefined : Typing.isDefinedFor op t.kind = true) :
    (Eval.rule program ev fuel).Sound G named origin id (if op = .eq then .bool else t) := by
  intro frame locals globals
  rw [Eval.rule, hnode]
  apply (hleft frame locals globals).bind
  intro l
  apply ((hright frame locals globals).weaken And.left).bind
  intro r
  exact Run.computes_settle fun hyps =>
    Operator.apply_yields hyps.1.2.conforms hyps.2.conforms hagree hdefined

theorem not_sound {operand : NodeId} (hnode : program.node? id = some (.not operand))
    (hoperand : ev.Sound G named origin operand .bool) :
    (Eval.rule program ev fuel).Sound G named origin id .bool := by
  intro frame locals globals
  rw [Eval.rule, hnode]
  exact (hoperand frame locals globals).bind fun m => Run.computes_settle fun hyps =>
    Operator.applyNot_yields hyps.2.conforms

theorem var_sound {name : String} {ty : Ty} (hnode : program.node? id = some (.var name ty))
    (hnamed : named name) :
    (Eval.rule program ev fuel).Sound G named origin id (G name) := by
  intro frame locals globals faults
  refine ⟨State.read ⟨locals, globals, faults⟩ name, [], ?_, fun hfits => ?_⟩
  · rw [Eval.rule, hnode, State.recordAll_nil]
    rfl
  · obtain ⟨m, hm, hfits⟩ := hfits.lookup hnamed
    have hread : State.read ⟨locals, globals, faults⟩ name = m := congrArg (·.getD .miss) hm
    rw [hread]
    exact hfits

theorem subscript_sound {base index : NodeId} {elem : Ty} {length : NodeId}
    (hnode : program.node? id = some (.subscript base index))
    (hbase : ev.Sound G named origin base (.array elem length))
    (hindex : ev.Sound G named origin index .int) :
    (Eval.rule program ev fuel).Sound G named origin id elem := by
  intro frame locals globals
  rw [Eval.rule, hnode]
  apply (hbase frame locals globals).bind
  intro b
  apply ((hindex frame locals globals).weaken And.left).bind
  intro i
  split
  · next hmiss =>
    apply Run.computes_fail
    intro hyps
    rw [hyps.1.2.resolved] at hmiss
    cases hmiss
  · exact Run.computes_settle fun hyps => hyps.1.2.element hyps.2

theorem select_sound {base : NodeId} {name : String} {fields : Entries Ty} {ty : Ty}
    (hnode : program.node? id = some (.select base name))
    (hbase : ev.Sound G named origin base (.record fields))
    (hty : Entries.get? name fields = some ty) :
    (Eval.rule program ev fuel).Sound G named origin id ty := by
  intro frame locals globals
  rw [Eval.rule, hnode]
  apply (hbase frame locals globals).bind
  intro b
  split
  · next hmiss =>
    apply Run.computes_fail
    intro hyps
    rw [hyps.2.resolved] at hmiss
    cases hmiss
  · apply Run.computes_settle
    intro hyps
    obtain ⟨part, hpart, hfits⟩ := hyps.2.field hty
    rw [hpart]
    exact hfits

end Rules

/-- With more fuel still, a node does what its rule does with all the fuel needed below. -/
theorem eventually_eval {program : Program} {P : Evaluator → Prop}
    (h : ∀ᶠ fuel in atTop, P (Eval.rule program (eval program fuel) fuel)) :
    ∀ᶠ fuel in atTop, P (eval program fuel) := by
  rw [← map_add_atTop_eq_nat 1, eventually_map]
  filter_upwards [h] with fuel hrule
  have heval : eval program (fuel + 1) = Eval.rule program (eval program fuel) fuel := by
    funext frame id
    exact eval_succ program fuel frame id
  rwa [heval]

section Expressions

variable {program : Program} {result : Option Ty} {id : NodeId} {ty : Ty}

theorem eventually_sound
    (h : ∀ᶠ fuel in atTop,
      (Eval.rule program (eval program fuel) fuel).Sound G named origin id ty) :
    ∀ᶠ fuel in atTop, (eval program fuel).Sound G named origin id ty :=
  eventually_eval (P := fun ev => ev.Sound G named origin id ty) h

/-- An expression that is accepted at a type is sound at each type it was compared to. -/
theorem Expression.sound_of_compared {t : Ty} (h : Expression program G named id)
    (haccepts : Accepts program result id t) (hcompared : (t.isUnknown || t.agrees ty) = true)
    (hsound : ∀ᶠ fuel in atTop, (eval program fuel).Sound G named origin id t) :
    ∀ᶠ fuel in atTop, (eval program fuel).Sound G named origin id ty := by
  have hagree := (h.proper haccepts).agrees_of_compared hcompared
  filter_upwards [hsound] with fuel hsound
  exact hsound.of_agrees hagree

theorem eventually_fieldSound {inits : List FieldInit} {field : String × Ty}
    (hproper : field.2.Proper)
    (hinits : ∀ init ∈ inits, init.name = field.1 →
      ∀ᶠ fuel in atTop, (eval program fuel).Sound G named origin init.value field.2)
    (hdefault : (∀ init ∈ inits, init.name ≠ field.1) →
      ∃ zero, HasDefault program field.2 zero) :
    ∀ᶠ fuel in atTop, FieldSound G named origin (eval program fuel) inits field := by
  unfold FieldSound
  cases hinit : inits.find? (·.name == field.1) with
  | some init =>
    have hname : init.name = field.1 := by simpa using List.find?_some hinit
    exact hinits init (List.mem_of_find?_eq_some hinit) hname
  | none =>
    have hout : ∀ init ∈ inits, init.name ≠ field.1 := by
      simpa using List.find?_eq_none.mp hinit
    obtain ⟨zero, hzero⟩ := hdefault hout
    filter_upwards [hzero.eventually] with fuel hrun
    exact ⟨zero, hrun, hzero.fits hproper⟩

/-- **Expressions are sound.**  With enough fuel, an accepted expression computes a value of its
type. -/
theorem Expression.sound (h : Expression program G named id)
    (haccepts : Accepts program result id ty) :
    ∀ᶠ fuel in atTop, (eval program fuel).Sound G named origin id ty := by
  induction h generalizing ty with
  | int hnode =>
    obtain rfl := haccepts.int hnode
    exact eventually_sound (.of_forall fun _ => int_sound hnode)
  | string hnode =>
    obtain rfl := haccepts.string hnode
    exact eventually_sound (.of_forall fun _ => string_sound hnode)
  | bool hnode =>
    obtain rfl := haccepts.bool hnode
    exact eventually_sound (.of_forall fun _ => bool_sound hnode)
  | @arrayLiteral id elem length elements hnode helem helements hdefault ih =>
    obtain ⟨rfl, haccepted, n, hlength, hcount⟩ := haccepts.arrayLiteral hnode
    by_cases hempty : program.children elements = []
    · obtain ⟨zero, hzero⟩ := hdefault hempty
      have hfits := hzero.fits (.array helem)
      apply eventually_sound
      filter_upwards [hzero.eventually] with fuel hzero
      exact arrayLiteral_sound_of_default hnode hempty hzero hfits
    · have hall : ∀ᶠ fuel in atTop, ∀ element ∈ program.children elements,
          (eval program fuel).Sound G named origin element elem := by
        apply eventually_forall_mem
        intro element helement
        obtain ⟨t, ht, hcompared⟩ := haccepted element helement
        exact (helements element helement).sound_of_compared ht hcompared (ih element helement ht)
      have hne := mt List.length_eq_zero_iff.mp hempty
      obtain rfl := hcount.resolve_left hne
      apply eventually_sound
      filter_upwards [hlength.eventually, hall] with fuel hlength hall
      exact arrayLiteral_sound hnode hlength hempty hall
  | @recordLiteral id fields inits hnode hfields hinits hdefault ih =>
    obtain ⟨rfl, haccepted⟩ := haccepts.recordLiteral hnode
    cases hfields with
    | record hnames hfields =>
      have hall : ∀ᶠ fuel in atTop, ∀ field ∈ fields,
          FieldSound G named origin (eval program fuel) (program.fieldInits inits) field := by
        apply eventually_forall_mem
        intro field hfield
        refine eventually_fieldSound (hfields field hfield) ?_ (hdefault field hfield)
        intro init hmem hname
        obtain ⟨t, other, ht, hother, hcompared⟩ := haccepted init hmem
        rw [hname, Entries.get?_eq_some_of_mem hnames hfield] at hother
        cases hother
        exact (hinits init hmem).sound_of_compared ht hcompared (ih init hmem ht)
      apply eventually_sound
      filter_upwards [hall] with fuel hall
      exact recordLiteral_sound hnode hnames hall
  | @binary id op left right hnode hleft hright ihleft ihright =>
    obtain ⟨t, t', hleft', hright', hty⟩ := haccepts.binary hnode
    obtain ⟨hagree, hdefined, rfl⟩ := Typing.binaryType_eq_ok
      (hleft.proper hleft').isUnknown_eq_false (hright.proper hright').isUnknown_eq_false hty
    apply eventually_sound
    filter_upwards [ihleft hleft', ihright hright'] with fuel hleft hright
    exact binary_sound hnode hleft hright hagree hdefined
  | not hnode hoperand ih =>
    obtain ⟨t, hoperand', hty⟩ := haccepts.not hnode
    obtain ⟨rfl, rfl⟩ := Typing.negationType_eq_ok (hoperand.proper hoperand').isUnknown_eq_false
      hty
    apply eventually_sound
    filter_upwards [ih hoperand'] with fuel hoperand
    exact not_sound hnode hoperand
  | var hnode hnamed =>
    obtain rfl := Typing.variableType_eq_ok (haccepts.var hnode)
    exact eventually_sound (.of_forall fun _ => var_sound hnode hnamed)
  | @subscript id base index hnode hbase hindex ihbase ihindex =>
    obtain ⟨⟨i, hindex', hint⟩, t, hbase', hty⟩ := haccepts.subscript hnode
    obtain ⟨length, rfl⟩ := Typing.elementType_eq_ok (hbase.proper hbase').isUnknown_eq_false hty
    have hindexes := hindex.sound_of_compared hindex' hint (ihindex hindex')
    apply eventually_sound
    filter_upwards [ihbase hbase', hindexes] with fuel hbase hindex
    exact subscript_sound hnode hbase hindex
  | select hnode hbase ih =>
    obtain ⟨t, hbase', hty⟩ := haccepts.select hnode
    obtain ⟨fields, rfl, hfield⟩ := Typing.fieldType_eq_ok (hbase.proper hbase').isUnknown_eq_false
      hty
    apply eventually_sound
    filter_upwards [ih hbase'] with fuel hbase
    exact select_sound hnode hbase hfield

end Expressions

/-! ### Statements -/

/-- The evaluator keeps the types of variables at the node, and what it returns is of the type
that is asked for. -/
def Evaluator.Keeps (G : String → Ty) (named : String → Prop) (origin : State) (asked : Ty)
    (ev : Evaluator) (id : NodeId) : Prop :=
  ∀ frame, (ev frame id).Executes (fun state => state.Fits G named origin) fun m final =>
    final.Fits G named origin ∧ (m.returned = true → m.value.Conforms asked)

section Statements

variable {program : Program} {ev : Evaluator} {fuel : Nat} {id : NodeId} {ty asked : Ty}

theorem Evaluator.Sound.executes (h : ev.Sound G named origin id ty) (frame : Frame) :
    (ev frame id).Executes (fun state => state.Fits G named origin) fun m final =>
      final.Fits G named origin ∧ m.Fits ty :=
  .of_computes (fun _ _ (m : Marked) => m.Fits ty) (h frame) State.Fits.of_scopes

/-- An expression returns nothing. -/
theorem Evaluator.Sound.keeps (h : ev.Sound G named origin id ty) :
    ev.Keeps G named origin asked id := by
  intro frame
  apply (h.executes frame).imp (fun _ hstate => hstate)
  intro m final hpost
  obtain ⟨hfinal, hm⟩ := hpost
  refine ⟨hfinal, fun hret => ?_⟩
  rw [hm.not_returned] at hret
  cases hret

/-- What yields undefined returns nothing. -/
theorem undefined_executes {good : State → Prop}
    (h : ∀ state, good state → state.Fits G named origin) :
    (pure .undefined : Run Marked).Executes good fun m final =>
      final.Fits G named origin ∧ (m.returned = true → m.value.Conforms asked) := by
  refine Run.executes_pure fun state hstate => ⟨h state hstate, ?_⟩
  intro hret
  cases hret

theorem ret_keeps {value : NodeId} (hnode : program.node? id = some (.ret value))
    (hvalue : ev.Sound G named origin value ty) (hagree : ty.agrees asked = true) :
    (Eval.rule program ev fuel).Keeps G named origin asked id := by
  intro frame
  rw [Eval.rule, hnode]
  refine (hvalue.executes frame).bind fun m => Run.executes_pure ?_
  intro state hyps
  obtain ⟨hstate, hm⟩ := hyps
  exact ⟨hstate, fun _ => hm.conforms.of_agrees hagree⟩

theorem sequence_keeps {body : List NodeId}
    (h : ∀ statement ∈ body, ev.Keeps G named origin asked statement) (frame : Frame) :
    (sequence ev frame body).Executes (fun state => state.Fits G named origin) fun m final =>
      final.Fits G named origin ∧ (m.returned = true → m.value.Conforms asked) := by
  induction body with
  | nil => exact undefined_executes fun _ hstate => hstate
  | cons statement rest ih =>
    obtain ⟨hhead, hrest⟩ := List.forall_mem_cons.mp h
    apply (hhead frame).bind
    intro m
    split
    · exact Run.executes_pure fun state hstate => hstate
    · exact (ih hrest).imp (fun _ hstate => hstate.1) fun _ _ hpost => hpost

theorem block_keeps {body : Span NodeId} (hnode : program.node? id = some (.block body))
    (h : ∀ statement ∈ program.children body, ev.Keeps G named origin asked statement) :
    (Eval.rule program ev fuel).Keeps G named origin asked id := by
  intro frame
  rw [Eval.rule, hnode]
  exact sequence_keeps h frame.sequence

theorem optionally_executes {statement : Option NodeId}
    (h : ∀ child ∈ statement, ev.Keeps G named origin asked child) (frame : Frame) :
    (optionally ev frame statement).Executes (fun state => state.Fits G named origin)
      fun _ final => final.Fits G named origin := by
  cases statement with
  | none => exact Run.executes_pure fun state hstate => hstate
  | some child =>
    exact (h child rfl frame).bind fun m => Run.executes_pure fun state hstate => hstate.1

theorem cond_keeps {init elseBranch : Option NodeId} {test thenBranch : NodeId}
    (hnode : program.node? id = some (.cond init test thenBranch elseBranch))
    (hinit : ∀ child ∈ init, ev.Keeps G named origin asked child)
    (htest : ev.Sound G named origin test .bool)
    (hthen : ev.Keeps G named origin asked thenBranch)
    (helse : ∀ child ∈ elseBranch, ev.Keeps G named origin asked child) :
    (Eval.rule program ev fuel).Keeps G named origin asked id := by
  intro frame
  rw [Eval.rule, hnode]
  refine (optionally_executes hinit frame).bind fun _ => (htest.executes frame).bind fun m => ?_
  split
  · exact (hthen frame).imp (fun _ hstate => hstate.1) fun _ _ hpost => hpost
  · cases elseBranch with
    | none => exact undefined_executes fun _ hstate => hstate.1
    | some child =>
      exact (helse child rfl frame).imp (fun _ hstate => hstate.1) fun _ _ hpost => hpost
  · next hnone =>
    apply Run.executes_fail
    intro state hyps
    obtain ⟨_, hm⟩ := hyps
    have hbool := hm.conforms
    cases hv : m.value with
    | bool b => simp [hv, Value.bool?] at hnone
    | _ =>
      rw [hv] at hbool
      cases hbool

/-! ### Assignments -/

theorem bindVariable_executes {name : String} (hnamed : named name)
    (hagree : ty.agrees (G name) = true) (frame : Frame) (declares : Bool) (m : Marked) :
    (bindVariable frame name declares m).Executes
      (fun state => state.Fits G named origin ∧ m.Fits ty)
      fun _ final => final.Fits G named origin := by
  refine Run.executes_modify ?_ ?_
  · intro state
    cases scopeOf frame state name declares m <;> rfl
  · intro state hyps
    obtain ⟨hstate, hm⟩ := hyps
    exact hstate.store hnamed (hm.of_agrees hagree).cleaned _

/-- The target is resolved to a place of this type in a bound variable. -/
def PlaceFits (G : String → Ty) (named : String → Prop) (ty : Ty) (locals globals : Namespace)
    (outcome : Except (Located Fault) Place) : Prop :=
  ∃ place, outcome = .ok place ∧ named place.root ∧
    boundIn? ⟨locals, globals, #[]⟩ place.root = some place.scope ∧
    (G place.root).slot? place.steps = some ty

/-- Storing a value of its type in a place keeps the types of variables, or fails for an index
that is out of range. -/
theorem store_fits {slot : Ty} {place : Place} {m : Marked} (h : state.Fits G named origin)
    (hnamed : named place.root) (hbound : boundIn? state place.root = some place.scope)
    (hslot : (G place.root).slot? place.steps = some slot) (hm : m.Fits slot) :
    (∃ stored, place.store m state = .ok stored ∧ stored.Fits G named origin) ∨
      ∃ fault, place.store m state = .error fault ∧ fault.cause.Excusable := by
  obtain ⟨old, hlookup, hold⟩ := h.lookup hnamed
  have hget := get?_of_boundIn? hbound
  rw [State.read, hlookup, Option.getD_some] at hget
  have hstore : Place.store ⟨place.scope, place.root, place.steps⟩ m state = _ :=
    Place.store_eq m hget
  rcases hold.replaceAt hslot hm.cleaned with ⟨new, hok, hnew⟩ | ⟨fault, herror, hfault⟩
  · rw [hok] at hstore
    exact .inl ⟨_, hstore, h.store hnamed hnew place.scope⟩
  · rw [herror] at hstore
    exact .inr ⟨fault, hstore, hfault⟩

/-- Writing a value of its type to a place fails for an index that is out of range, if at all. -/
theorem writePlace_executes {slot : Ty} (hagree : ty.agrees slot = true)
    (outcome : Except (Located Fault) Place) (m : Marked) :
    (writePlace outcome m).Executes
      (fun state => (state.Fits G named origin ∧
        PlaceFits G named slot state.locals state.globals outcome) ∧ m.Fits ty)
      fun _ final => final.Fits G named origin := by
  intro state
  rw [writePlace_apply]
  cases hstored : outcome.bind fun place => place.store m state with
  | error fault =>
    refine ⟨(), state.record fault, [fault], rfl, ?_, ?_⟩
    · rw [State.recordAll_singleton]
    · intro hyps
      obtain ⟨⟨hstate, hplace⟩, hm⟩ := hyps
      obtain ⟨place, rfl, hnamed, hbound, hslot⟩ := hplace
      have hstore := store_fits hstate hnamed hbound hslot (hm.of_agrees hagree)
      rcases hstore with ⟨stored, hok, -⟩ | ⟨fault', herror, hfault⟩
      · exact absurd (hok.symm.trans hstored) nofun
      · cases herror.symm.trans hstored
        exact hfault
  | ok stored =>
    refine ⟨(), stored, [], rfl, ?_, ?_⟩
    · rw [State.recordAll_nil]
      cases outcome with
      | error fault => cases hstored
      | ok place => exact Place.store_faults hstored
    · intro hyps
      obtain ⟨⟨hstate, hplace⟩, hm⟩ := hyps
      obtain ⟨place, rfl, hnamed, hbound, hslot⟩ := hplace
      have hstore := store_fits hstate hnamed hbound hslot (hm.of_agrees hagree)
      rcases hstore with ⟨stored', hok, hfits⟩ | ⟨fault', herror, hfault⟩
      · cases hok.symm.trans hstored
        exact hfits
      · exact absurd (herror.symm.trans hstored) nofun

/-- Resolving a target yields a place of its type. -/
def ResolveSound (G : String → Ty) (named : String → Prop) (origin : State) (program : Program)
    (ev : Evaluator) (depth : Nat) (id : NodeId) (ty : Ty) : Prop :=
  ∀ frame locals globals, Run.Computes locals globals (resolve program ev frame depth id).run
    (State.Fits ⟨locals, globals, #[]⟩ G named origin) (PlaceFits G named ty locals globals)

theorem resolve_var_sound {name : String} {attached : Ty} {depth : Nat}
    (hnode : program.node? id = some (.var name attached)) (hnamed : named name) :
    ResolveSound G named origin program ev (depth + 1) id (G name) := by
  intro frame locals globals faults
  rw [run_resolve_succ, hnode]
  cases hscope : boundIn? ⟨locals, globals, faults⟩ name with
  | none =>
    refine ⟨.error ⟨.unresolvedRoot name, id⟩, [], ?_, fun hfits => ?_⟩
    · simp [Run.bind_apply, hscope]
    · obtain ⟨m, hm, -⟩ := hfits.lookup hnamed
      obtain ⟨scope, hbound, -⟩ := exists_boundIn? hm
      cases hbound.symm.trans hscope
  | some scope =>
    refine ⟨.ok ⟨scope, name, []⟩, [], ?_, fun _ => ?_⟩
    · simp [Run.bind_apply, hscope]
    · exact ⟨⟨scope, name, []⟩, rfl, hnamed, hscope, rfl⟩

theorem resolve_subscript_sound {base index : NodeId} {elem : Ty} {length : NodeId} {depth : Nat}
    (hnode : program.node? id = some (.subscript base index))
    (hbase : ResolveSound G named origin program ev depth base (.array elem length))
    (hindex : ev.Sound G named origin index .int) :
    ResolveSound G named origin program ev (depth + 1) id elem := by
  intro frame locals globals
  rw [run_resolve_succ, hnode]
  apply (hbase frame locals globals).bind
  intro outcome
  cases outcome with
  | error fault =>
    apply Run.computes_pure
    intro hyps
    obtain ⟨_, place, hplace, _⟩ := hyps
    cases hplace
  | ok place =>
    apply ((hindex frame locals globals).weaken And.left).bind
    intro m
    cases hn : m.value.int? with
    | none =>
      apply Run.computes_pure
      intro hyps
      obtain ⟨_, hm⟩ := hyps
      have hint := hm.conforms
      cases hv : m.value with
      | int n => simp [hv, Value.int?] at hn
      | _ =>
        rw [hv] at hint
        cases hint
    | some n =>
      apply Run.computes_pure
      intro hyps
      obtain ⟨⟨_, place', hplace, hnamed, hbound, hslot⟩, _⟩ := hyps
      cases hplace
      exact ⟨_, rfl, hnamed, hbound, Ty.slot?_concat hslot⟩

theorem resolve_select_sound {base : NodeId} {name : String} {fields : Entries Ty} {depth : Nat}
    (hnode : program.node? id = some (.select base name))
    (hbase : ResolveSound G named origin program ev depth base (.record fields))
    (hty : Entries.get? name fields = some ty) :
    ResolveSound G named origin program ev (depth + 1) id ty := by
  intro frame locals globals
  rw [run_resolve_succ, hnode]
  apply (hbase frame locals globals).bind
  intro outcome
  cases outcome with
  | error fault =>
    apply Run.computes_pure
    intro hyps
    obtain ⟨_, place, hplace, _⟩ := hyps
    cases hplace
  | ok place =>
    apply Run.computes_pure
    intro hyps
    obtain ⟨_, place', hplace, hnamed, hbound, hslot⟩ := hyps
    cases hplace
    exact ⟨_, rfl, hnamed, hbound, (Ty.slot?_concat hslot).trans hty⟩

theorem assign_var_keeps {target value : NodeId} {declares : Bool} {name : String} {attached : Ty}
    (hnode : program.node? id = some (.assign target value declares))
    (htarget : program.node? target = some (.var name attached)) (hnamed : named name)
    (hvalue : ev.Sound G named origin value ty) (hagree : ty.agrees (G name) = true) :
    (Eval.rule program ev fuel).Keeps G named origin asked id := by
  intro frame
  rw [Eval.rule, hnode]
  dsimp only
  rw [assign, htarget]
  apply (hvalue.executes frame).bind
  intro m
  apply (bindVariable_executes hnamed hagree frame declares m).bind
  intro _
  exact undefined_executes fun _ hstate => hstate

/-- An assignment to a subscript or a selector. -/
theorem assign_place_keeps {target value : NodeId} {declares : Bool} {slot : Ty}
    (hnode : program.node? id = some (.assign target value declares))
    (htarget : (∃ base index, program.node? target = some (.subscript base index)) ∨
      ∃ base name, program.node? target = some (.select base name))
    (hresolve : ResolveSound G named origin program ev fuel target slot)
    (hvalue : ev.Sound G named origin value ty) (hagree : ty.agrees slot = true) :
    (Eval.rule program ev fuel).Keeps G named origin asked id := by
  intro frame
  rw [Eval.rule, hnode]
  dsimp only
  rw [assign_eq_assignPlace htarget, assignPlace]
  refine Run.Executes.bind ?_ fun _ => undefined_executes fun _ hstate => hstate
  apply (Run.Executes.of_computes _ (hresolve frame) State.Fits.of_scopes).bind
  intro outcome
  refine Run.Executes.bind (Run.Executes.of_computes (fun _ _ (m : Marked) => m.Fits ty)
    (fun locals globals => (hvalue frame locals globals).weaken And.left) ?_)
    fun m => writePlace_executes hagree outcome m
  intro locals globals faults faults' hpost
  obtain ⟨hfits, hplace⟩ := hpost
  exact ⟨hfits.of_scopes _ _, hplace⟩

end Statements

/-- With enough fuel, a target that is accepted as an expression is resolved to a place of its
type. -/
theorem Target.resolve_sound {program : Program} {result : Option Ty} {id : NodeId} {ty : Ty}
    (h : Target program G named id) (haccepts : Accepts program result id ty) :
    ∃ k, ∀ᶠ fuel in atTop, ∀ depth, k ≤ depth →
      ResolveSound G named origin program (eval program fuel) depth id ty := by
  induction h generalizing ty with
  | var hnode hnamed =>
    obtain rfl := Typing.variableType_eq_ok (haccepts.var hnode)
    refine ⟨1, .of_forall fun fuel depth hdepth => ?_⟩
    obtain ⟨depth, rfl⟩ : ∃ n, depth = n + 1 := ⟨depth - 1, by omega⟩
    exact resolve_var_sound hnode hnamed
  | @subscript id base index hnode hbase hindex ih =>
    obtain ⟨⟨i, hindex', hint⟩, t, hbase', hty⟩ := haccepts.subscript hnode
    obtain ⟨length, rfl⟩ := Typing.elementType_eq_ok
      (hbase.expression.proper hbase').isUnknown_eq_false hty
    obtain ⟨k, hk⟩ := ih hbase'
    refine ⟨k + 1, ?_⟩
    filter_upwards [hk, hindex.sound_of_compared hindex' hint (hindex.sound hindex')]
      with fuel hbase hindex depth hdepth
    obtain ⟨depth, rfl⟩ : ∃ n, depth = n + 1 := ⟨depth - 1, by omega⟩
    exact resolve_subscript_sound hnode (hbase depth (by omega)) hindex
  | select hnode hbase ih =>
    obtain ⟨t, hbase', hty⟩ := haccepts.select hnode
    obtain ⟨fields, rfl, hfield⟩ := Typing.fieldType_eq_ok
      (hbase.expression.proper hbase').isUnknown_eq_false hty
    obtain ⟨k, hk⟩ := ih hbase'
    refine ⟨k + 1, ?_⟩
    filter_upwards [hk] with fuel hbase depth hdepth
    obtain ⟨depth, rfl⟩ : ∃ n, depth = n + 1 := ⟨depth - 1, by omega⟩
    exact resolve_select_sound hnode (hbase depth (by omega)) hfield

section Bodies

variable {program : Program} {asked : Ty} {id : NodeId}

theorem eventually_keeps
    (h : ∀ᶠ fuel in atTop,
      (Eval.rule program (eval program fuel) fuel).Keeps G named origin asked id) :
    ∀ᶠ fuel in atTop, (eval program fuel).Keeps G named origin asked id :=
  eventually_eval (P := fun ev => ev.Keeps G named origin asked id) h

/-- An accepted assignment keeps the types of variables. -/
theorem eventually_assign_keeps {target value : NodeId} {declares : Bool} {t : Ty}
    {result : Option Ty} (hnode : program.node? id = some (.assign target value declares))
    (htarget : Target program G named target) (hvalue : Expression program G named value)
    (haccepts : Accepts program result id t) :
    ∀ᶠ fuel in atTop, (eval program fuel).Keeps G named origin asked id := by
  obtain ⟨t, slot, hvalue', htarget', hty⟩ := haccepts.assign hnode
  have hagree := Typing.assignmentType_eq_ok (hvalue.proper hvalue').isUnknown_eq_false
    (htarget.expression.proper htarget').isUnknown_eq_false hty
  obtain ⟨k, hresolve⟩ : ∃ k, ∀ᶠ fuel in atTop, ∀ depth, k ≤ depth →
      ResolveSound G named origin program (eval program fuel) depth target slot :=
    htarget.resolve_sound htarget'
  apply eventually_keeps
  filter_upwards [hresolve, hvalue.sound hvalue', eventually_ge_atTop k]
    with fuel hresolve hvalue hfuel
  cases htarget with
  | var hvar hnamed =>
    obtain rfl := Typing.variableType_eq_ok (htarget'.var hvar)
    exact assign_var_keeps hnode hvar hnamed hvalue hagree
  | subscript hsubscript =>
    exact assign_place_keeps hnode (.inl ⟨_, _, hsubscript⟩) (hresolve fuel hfuel) hvalue hagree
  | select hselect =>
    exact assign_place_keeps hnode (.inr ⟨_, _, hselect⟩) (hresolve fuel hfuel) hvalue hagree

/-- What holds with enough fuel of an optional node, if there is one. -/
theorem eventually_optional {P : Nat → NodeId → Prop} {statement : Option NodeId}
    (h : ∀ child ∈ statement, ∀ᶠ fuel in atTop, P fuel child) :
    ∀ᶠ fuel in atTop, ∀ child ∈ statement, P fuel child := by
  cases statement with
  | none => exact .of_forall fun _ _ hchild => nomatch hchild
  | some child =>
    filter_upwards [h child rfl] with fuel hfuel child' hchild
    cases hchild
    exact hfuel

/-- **Statements are sound.**  With enough fuel, an accepted statement keeps the types of
variables, and returns values of the result type only. -/
theorem Statement.sound (h : Statement program G named id) (hasked : asked.Proper)
    (haccepts : ∃ t, Accepts program (some asked) id t) :
    ∀ᶠ fuel in atTop, (eval program fuel).Keeps G named origin asked id := by
  induction h with
  | expression h =>
    obtain ⟨t, ht⟩ := haccepts
    filter_upwards [h.sound ht] with fuel hsound
    exact hsound.keeps
  | block hnode hbody ih =>
    obtain ⟨t, ht⟩ := haccepts
    have haccepted := ht.block hnode
    have hall : ∀ᶠ fuel in atTop, ∀ statement ∈ program.children _,
        (eval program fuel).Keeps G named origin asked statement :=
      eventually_forall_mem _ fun statement hstatement =>
        ih statement hstatement (haccepted statement hstatement)
    apply eventually_keeps
    filter_upwards [hall] with fuel hall
    exact block_keeps hnode hall
  | cond hnode hinit htest hthen helse ihinit ihthen ihelse =>
    obtain ⟨t, ht⟩ := haccepts
    obtain ⟨hinit', ⟨t', htest', hcompared⟩, hthen', helse'⟩ := ht.cond hnode
    have htests : ∀ᶠ fuel in atTop, (eval program fuel).Sound G named origin _ .bool :=
      htest.sound_of_compared htest' hcompared (htest.sound htest')
    have hinits := eventually_optional fun child hchild => ihinit child hchild (hinit' child hchild)
    have helses := eventually_optional fun child hchild => ihelse child hchild (helse' child hchild)
    apply eventually_keeps
    filter_upwards [hinits, htests, ihthen hthen', helses] with fuel hinits htest hthen helses
    exact cond_keeps hnode hinits htest hthen helses
  | ret hnode hvalue =>
    obtain ⟨t, ht⟩ := haccepts
    obtain ⟨t', hvalue', hty⟩ := ht.ret hnode
    have hagree := Typing.returnType_eq_ok (hvalue.proper hvalue').isUnknown_eq_false
      hasked.isUnknown_eq_false hty
    apply eventually_keeps
    filter_upwards [hvalue.sound hvalue'] with fuel hvalue
    exact ret_keeps hnode hvalue hagree
  | assign hnode htarget hvalue =>
    obtain ⟨t, ht⟩ := haccepts
    exact eventually_assign_keeps hnode htarget hvalue ht

/-- **Checked bodies are sound.**  If checking a function reports nothing, and all variables that
its body may name are bound to values of their types, then the body runs to its end.  The first
fault it records, if any, is an arithmetic failure or a matter of bounds.  If it records none,
then what it returns is of the result type, and all variables still are of their types. -/
theorem checked_body_sound {signature : Signature} {fuel : Nat} (frame : Frame)
    (hbody : Statement program G named signature.body) (hresult : signature.result.Proper)
    (hcheck : checkFunction program fuel signature = some #[])
    (hlocals : state.locals.Clean) (hglobals : state.globals.Clean)
    (hbound : state.Bound G named) :
    ∃ m final recorded, Evaluates program frame signature.body state m final ∧
      final.locals.Clean ∧ final.globals.Clean ∧
      final.faults = (state.recordAll recorded).faults ∧
      (∀ first ∈ recorded.head?,
        first.cause.kind = .arithmetic ∨ first.cause.kind = .bounds) ∧
      (recorded = [] → (m.returned = true → m.value.Conforms signature.result) ∧
        final.Bound G named ∧ final.Keeps G named state) := by
  obtain ⟨⟨ty, mismatches⟩, hrun, hnone⟩ := Option.map_eq_some_iff.mp hcheck
  cases hnone
  have haccepts : ∃ t, Accepts program (some signature.result) signature.body t := ⟨ty, fuel, hrun⟩
  have hfits : state.Fits G named state :=
    ⟨⟨hlocals, hglobals⟩, hbound, fun _ _ _ hm => .inr hm⟩
  obtain ⟨enough, hkeeps⟩ := (hbody.sound hresult haccepts).exists
  obtain ⟨m, final, recorded, heval, hfaults, hpost⟩ := hkeeps frame state
  have hclean := (eval_everywhere (hereditary_isClean program) enough _ _ _
    ⟨hlocals, hglobals⟩ _ _ heval).2
  have hexcused := hpost hfits
  refine ⟨m, final, recorded, ⟨enough, heval⟩, hclean.locals, hclean.globals, hfaults, ?_, ?_⟩
  · intro first hfirst
    cases recorded with
    | nil => cases hfirst
    | cons head rest =>
      cases hfirst
      exact hexcused
  · intro heq
    subst heq
    exact ⟨hexcused.2, hexcused.1.bound, hexcused.1.kept⟩

end Bodies

/-- `xs[i] = xs[i] + 1; return xs[i]` -/
def incrementProgram : Program where
  nodes := #[.int 2, .var "xs" (.array .int ⟨0⟩), .var "i" .int, .subscript ⟨1⟩ ⟨2⟩, .int 1,
    .binary .add ⟨3⟩ ⟨4⟩, .assign ⟨3⟩ ⟨5⟩ false, .ret ⟨3⟩, .block ⟨0, 2⟩]
  childCells := #[⟨6⟩, ⟨7⟩]

/-- The types of its two variables. -/
def incrementTypes (name : String) : Ty :=
  if name = "xs" then .array .int ⟨0⟩ else .int

/-- A global array and a local index. -/
def incrementState : State where
  locals := .ofPairs [("i", .plain (.int 1))]
  globals := .ofPairs [("xs", .list .int ⟨0⟩ [.plain (.int 4), .plain (.int 5)])]

theorem incrementProgram_statement :
    Statement incrementProgram incrementTypes (· ∈ ["xs", "i"]) ⟨8⟩ := by
  have hxs : Target incrementProgram incrementTypes (· ∈ ["xs", "i"]) ⟨1⟩ :=
    .var rfl (by decide) (.array .int)
  have hi : Expression incrementProgram incrementTypes (· ∈ ["xs", "i"]) ⟨2⟩ :=
    .var rfl (by decide) .int
  have hslot : Target incrementProgram incrementTypes (· ∈ ["xs", "i"]) ⟨3⟩ :=
    .subscript rfl hxs hi
  refine .block rfl (List.forall_mem_cons.mpr ⟨.assign rfl hslot ?_, ?_⟩)
  · exact .binary rfl hslot.expression (.int rfl)
  · exact List.forall_mem_singleton.mpr (.ret rfl hslot.expression)

theorem checked_body_sound_incrementProgram :
    ∃ m final, Evaluates incrementProgram { isFunction := true } ⟨8⟩ incrementState m final ∧
      m.returned = true ∧ m.value.Conforms .int ∧
      final.Bound incrementTypes (· ∈ ["xs", "i"]) := by
  have hbody := incrementProgram_statement
  have hcheck : checkFunction incrementProgram 6 ⟨[("i", .int)], .int, ⟨8⟩⟩ = some #[] := rfl
  have hlocals : incrementState.locals.Clean := Namespace.everywhere_ofPairs fun pair hpair => by
    rw [List.mem_singleton.mp hpair]
    exact (Marked.fits_int 1).clean
  have hlist : (Marked.list .int ⟨0⟩ [.plain (.int 4), .plain (.int 5)]).Fits (.array .int ⟨0⟩) :=
    Marked.fits_list (List.forall_mem_cons.mpr
      ⟨Marked.fits_int 4, List.forall_mem_singleton.mpr (Marked.fits_int 5)⟩)
  have hglobals : incrementState.globals.Clean := Namespace.everywhere_ofPairs fun pair hpair => by
    rw [List.mem_singleton.mp hpair]
    exact hlist.cleaned.clean
  have hbound : incrementState.Bound incrementTypes (· ∈ ["xs", "i"]) := by
    intro name hname
    rcases List.mem_pair.mp hname with rfl | rfl
    · exact ⟨_, rfl, hlist.conforms⟩
    · exact ⟨_, rfl, .int 1⟩
  obtain ⟨m, final, recorded, heval, -, -, hfaults, -, hsound⟩ :=
    checked_body_sound { isFunction := true } hbody .int hcheck hlocals hglobals hbound
  obtain ⟨m', final', heval', hreturned, hnone⟩ : ∃ m final, Evaluates incrementProgram
      { isFunction := true } ⟨8⟩ incrementState m final ∧ m.returned = true ∧
      final.faults = #[] := ⟨_, _, ⟨7, rfl⟩, rfl, rfl⟩
  obtain ⟨rfl, rfl⟩ := heval.unique heval'
  have hempty : recorded = [] := by
    rw [hnone] at hfaults
    simpa [State.recordAll, incrementState] using hfaults.symm
  obtain ⟨hresult, hkept, -⟩ := hsound hempty
  exact ⟨m, final, heval, hreturned, hresult hreturned, hkept⟩

end Arbor
