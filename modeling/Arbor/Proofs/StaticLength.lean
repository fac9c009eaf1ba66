import Arbor.Proofs.Effects
import Arbor.Proofs.Following
import Arbor.Proofs.Functionless
import Arbor.Proofs.Pointwise

/-!
# Lengths depend on no variable

The length of an array type is computed with nothing in scope, and later the same
node may be evaluated where there are variables.  A lookup that fails is no fault,
so an accepted length may well contain variables: as elements of a list, as fields
of a record, as statements whose value is dropped.  There, undefined stood for any
value at all.

A value is filled by another one if that has something in the place of undefined
parts (`Marked.FilledBy`).  The only constructs that tell the two apart are those
that fail on undefined, and a length during which something failed is not accepted.
So evaluation elsewhere does the same with filled values, and the integer that
comes out has no undefined part.

* `substitution_filledBy` — no construct tells a value from one that it is filled
  by, except by failing;
* `eval_filled` — evaluation with nothing in scope, and in any clean state;
* `static_length_everywhere` — an accepted length is the same everywhere.
-/

namespace Arbor

/-! ### Filled values -/

/-- The second value is the first one with anything in the place of undefined parts. -/
inductive Marked.FilledBy : Marked → Marked → Prop where
  | same (m : Marked) : FilledBy m m
  | undefined (v : Value) (returned : Bool) {unresolved unresolved' : Bool}
    (h : unresolved = false → unresolved' = false) :
    FilledBy ⟨.undefined, returned, unresolved⟩ ⟨v, returned, unresolved'⟩
  | list (elem : Ty) (length : NodeId) {items items' : List Marked} (returned unresolved : Bool)
    (hitems : List.Forall₂ FilledBy items items') :
    FilledBy ⟨.list elem length items, returned, unresolved⟩
      ⟨.list elem length items', returned, unresolved⟩
  | record (shape : Entries Ty) {fields fields' : Entries Marked} (returned unresolved : Bool)
    (hfields : List.Forall₂ (Entries.Paired FilledBy) fields fields') :
    FilledBy ⟨.record shape fields, returned, unresolved⟩
      ⟨.record shape fields', returned, unresolved⟩

namespace Marked.FilledBy

variable {m m' : Marked}

theorem cleaned (h : m.FilledBy m') : m.cleaned.FilledBy m'.cleaned := by
  cases h with
  | same => exact .same _
  | undefined v returned _ => exact .undefined v false id
  | list elem length _ _ hitems => exact .list elem length false false hitems
  | record shape _ _ hfields => exact .record shape false false hfields

theorem asReturn (h : m.FilledBy m') : m.asReturn.FilledBy m'.asReturn := by
  cases h with
  | same => exact .same _
  | undefined v _ hmiss => exact .undefined v true hmiss
  | list elem length _ _ hitems => exact .list elem length true _ hitems
  | record shape _ _ hfields => exact .record shape true _ hfields

theorem returned (h : m.FilledBy m') : m'.returned = m.returned := by
  cases h <;> rfl

theorem resolved (h : m.FilledBy m') (hm : m.unresolved = false) : m'.unresolved = false := by
  cases h with
  | undefined _ _ hmiss => exact hmiss hm
  | _ => exact hm

/-- A scalar has no undefined part. -/
theorem value_eq (h : m.FilledBy m') (hm : m.value.isScalar = true) : m'.value = m.value := by
  cases h with
  | same => rfl
  | _ => cases hm

/-- Something that reads `undefined` stands for every clean value. -/
theorem of_miss (hm : m'.isClean = true) : Marked.miss.FilledBy m' := by
  obtain ⟨hreturned, hresolved⟩ := Marked.isClean_iff.mp hm
  obtain ⟨v, returned, unresolved⟩ := m'
  cases hreturned
  exact .undefined v false fun _ => hresolved

theorem list_of_items {items items' : List Marked} (elem : Ty) (length : NodeId)
    (h : List.Forall₂ FilledBy items items') :
    (Marked.list elem length items).FilledBy (.list elem length items') := by
  refine .list elem length false false ?_
  rw [List.forall₂_map_left_iff, List.forall₂_map_right_iff]
  exact h.imp fun _ _ => cleaned

theorem record_of_fields {fields fields' : Entries Marked} (shape : Entries Ty)
    (h : List.Forall₂ (fun field field' => field.1 = field'.1 ∧ field.2.FilledBy field'.2)
      fields fields') :
    (Marked.record shape fields).FilledBy (.record shape fields') := by
  refine .record shape false false (Entries.forall₂_putAll ?_ .nil)
  rw [List.forall₂_map_left_iff, List.forall₂_map_right_iff]
  refine h.imp fun field field' hfield => ?_
  obtain ⟨hname, hcontent⟩ := hfield
  rw [hname]
  exact .intro field'.1 hcontent.cleaned

theorem element {base base' index index' : Marked} (hbase : base.FilledBy base')
    (hindex : index.FilledBy index') (h : Eval.element base.value index.value = .ok m) :
    ∃ m', Eval.element base'.value index'.value = .ok m' ∧ m.FilledBy m' := by
  obtain ⟨elem, length, items, n, i, hlist, hint, hi, hitem⟩ := Eval.element_eq_ok_iff.mp h
  have hint' : index'.value = .int n := by
    rw [hindex.value_eq (by rw [hint]; rfl), hint]
  cases hbase with
  | same =>
    exact ⟨m, Eval.element_eq_ok_iff.mpr ⟨elem, length, items, n, i, hlist, hint', hi, hitem⟩,
      .same m⟩
  | undefined => cases hlist
  | record => cases hlist
  | @list _ _ _ items' _ _ hitems =>
    cases hlist
    obtain ⟨hlt, hget⟩ := List.getElem?_eq_some_iff.mp hitem
    have hlength := hitems.length_eq
    have hlt' : i < items'.length := by omega
    rw [hlength] at hi
    refine ⟨items'[i], Eval.element_eq_ok_iff.mpr ⟨elem, length, items', n, i, rfl, hint', hi,
      List.getElem?_eq_getElem hlt'⟩, ?_⟩
    have hrelated := hitems.get hlt hlt'
    simp only [List.get_eq_getElem, hget] at hrelated
    exact hrelated

theorem field {base base' : Marked} {name : String} (hbase : base.FilledBy base')
    (h : Eval.field base.value name = .ok m) :
    ∃ m', Eval.field base'.value name = .ok m' ∧ m.FilledBy m' := by
  obtain ⟨shape, fields, hrecord, hget⟩ := Eval.field_eq_ok_iff.mp h
  cases hbase with
  | same => exact ⟨m, h, .same m⟩
  | undefined => cases hrecord
  | list => cases hrecord
  | @record _ _ fields' _ _ hfields =>
    cases hrecord
    obtain ⟨m', hget', hm⟩ := Entries.exists_get?_of_forall₂ hfields hget
    exact ⟨m', Eval.field_eq_ok_iff.mpr ⟨shape, fields', rfl, hget'⟩, hm⟩

end Marked.FilledBy

theorem substitution_filledBy : Substitution Marked.FilledBy where
  refl := .same
  returned h := h.returned
  resolved h := h.resolved
  asReturn h := h.cleaned.asReturn
  list elem length h := .list_of_items elem length h
  record shape h := .record_of_fields shape h
  bool := by
    intro m m' b h hb
    have hscalar : m.value.isScalar = true := by
      cases hv : m.value with
      | bool => rfl
      | _ => rw [hv] at hb; cases hb
    rw [h.value_eq hscalar, hb]
  binary := by
    intro l l' r r' op v hl hr hv
    obtain ⟨hleft, hright⟩ := Operator.operands_isScalar hv
    rw [hl.value_eq hleft, hr.value_eq hright, hv]
  not := by
    intro m m' v h hv
    obtain ⟨b, hb, -⟩ := Operator.applyNot_eq_ok hv
    rw [h.value_eq (by rw [hb]; rfl), hv]
  element hbase hindex h := hbase.element hindex h
  field hbase h := hbase.field h

/-! ### Two runs of one node -/

/-- The first run is the one with nothing in scope; it has recorded nothing so far. -/
abbrev Run.FilledIn {α : Type} (elsewhere : State) (run run' : Run α) (rel : α → α → Prop) : Prop :=
  Run.Follows (fun state => state.faults = #[])
    (fun state state' => state = {} ∧ state' = elsewhere) run run' rel

variable {program : Program} {elsewhere : State}

theorem simulation_filledBy :
    Simulation (fun state => state.faults = #[])
      (fun state state' => state = {} ∧ state' = elsewhere) Marked.FilledBy where
  toSubstitution := substitution_filledBy
  fault _ _ hcalm := absurd hcalm (Array.push_ne_empty)
  same := .inr fun _ _ => Array.push_ne_empty

/-- A variable is unbound in the first run, and clean or unbound in the second one. -/
theorem Eval.lookup_filled (hclean : ∀ name m, elsewhere.lookup name = some m → m.isClean = true)
    (name : String) :
    Run.FilledIn elsewhere (get >>= fun state => pure ((state.lookup name).getD .miss))
      (get >>= fun state => pure ((state.lookup name).getD .miss)) Marked.FilledBy := by
  intro state m final hrun hcalm
  cases hrun
  refine ⟨hcalm, fun state' hrelated => ?_⟩
  obtain ⟨rfl, rfl⟩ := hrelated
  refine ⟨_, state', rfl, ⟨rfl, rfl⟩, ?_⟩
  show Marked.miss.FilledBy ((state'.lookup name).getD .miss)
  cases hfound : state'.lookup name with
  | none => exact .same _
  | some m => exact .of_miss (hclean name m hfound)

/-- Nothing that evaluation does takes a fault back. -/
theorem faults_eq_empty_of_eval {fuel : Nat} {frame : Frame} {id : NodeId} {state final : State}
    {m : Marked} (h : eval program fuel frame id state = some (m, final))
    (hfinal : final.faults = #[]) : state.faults = #[] := by
  obtain ⟨-, hreached⟩ := eval_yields_true program fuel frame id state m final h
  obtain ⟨recorded, hfaults⟩ := hreached.evolves.faults_eq
  rw [hfaults] at hfinal
  exact (Array.append_eq_empty_iff.mp hfinal).1

/-- A call is never followed: with nothing in scope there is no function, so it fails. -/
theorem eval_call_filled (fuel : Nat) (frame : Frame) {run' : Run Marked} {id callee : NodeId}
    {args : Span NodeId} (hnode : program.node? id = some (.call callee args)) :
    Run.FilledIn elsewhere (eval program (fuel + 1) frame id) run' Marked.FilledBy := by
  intro state m final hrun hcalm
  refine ⟨faults_eq_empty_of_eval hrun hcalm, fun state' hrelated => ?_⟩
  obtain ⟨rfl, -⟩ := hrelated
  obtain ⟨f, middle, fault, -, -, hfinal, -⟩ :=
    Evaluates.call_of_functionless hnode State.functionless_empty ⟨fuel + 1, hrun⟩
  rw [hfinal] at hcalm
  exact absurd hcalm Array.push_ne_empty

/-- **Evaluation with nothing in scope tells what happens in any clean state**, if no node below
assigns: unless it records a fault, evaluation there does the same, with filled values. -/
theorem eval_filled {root : NodeId}
    (hunassigned : ∀ part, program.Contains root part → ∀ target value declares,
      program.node? part ≠ some (.assign target value declares))
    (hclean : ∀ name m, elsewhere.lookup name = some m → m.isClean = true) (fuel : Nat)
    (frame frame' : Frame) {id : NodeId} (hid : program.Contains root id) :
    Run.FilledIn elsewhere (eval program fuel frame id) (eval program fuel frame' id)
      Marked.FilledBy := by
  induction fuel generalizing frame frame' id with
  | zero => exact Run.follows_outOfFuel
  | succ fuel ih =>
    by_cases hcall : ∃ callee args, program.node? id = some (.call callee args)
    · obtain ⟨callee, args, hnode⟩ := hcall
      exact eval_call_filled fuel frame hnode
    · rw [eval_succ, eval_succ]
      have hbelow : ∀ node, program.node? id = some node → ∀ child ∈ node.children program,
          program.Contains root child :=
        fun node hnode child hchild => hid.tail ⟨node, hnode, hchild⟩
      exact Eval.rule_follows simulation_filledBy
        (fun node hnode child hchild => ⟨ih _ _ (hbelow node hnode child hchild),
          ih _ _ (hbelow node hnode child hchild)⟩)
        (fun name _ _ => Eval.lookup_filled hclean name)
        (fun target value declares hnode => absurd hnode (hunassigned id hid target value declares))
        (fun callee args hnode => absurd ⟨callee, args, hnode⟩ hcall)

/-- An accepted length is an integer that came out without a fault. -/
theorem settledLength_eq_ok {m : Marked} {faults : Array (Located Fault)} {n : Nat}
    (h : settledLength m faults = .ok n) :
    faults = #[] ∧ ∃ w, m.value = .int w ∧ w.toInt = n := by
  unfold settledLength at h
  cases hfirst : faults[0]? with
  | some first => simp [hfirst] at h
  | none =>
    have hempty : faults = #[] := by simpa using hfirst
    refine ⟨hempty, ?_⟩
    rw [hfirst] at h
    dsimp only at h
    split at h
    · cases h
    · cases hint : m.value.int? with
      | none => simp [hint] at h
      | some w =>
        rw [hint] at h
        dsimp only at h
        split at h
        · cases h
        · split at h
          · cases h
          · cases h
            refine ⟨w, ?_, by omega⟩
            cases hv : m.value <;> simp_all [Value.int?]

/-- **An accepted length is the same everywhere.**  If no node below it assigns, then in every frame
and every state whose variables carry no marks, the length node ends, records no fault, changes no
variable and yields the integer. -/
theorem static_length_everywhere {length : NodeId} {n : Nat}
    (hunassigned : ∀ part, program.Contains length part → ∀ target value declares,
      program.node? part ≠ some (.assign target value declares))
    (hlength : HasLength program length n) (frame : Frame) {state : State}
    (hclean : ∀ name m, state.lookup name = some m → m.isClean = true) :
    ∃ m w, Evaluates program frame length state m state ∧ m.value = .int w ∧ w.toInt = n := by
  obtain ⟨fuel, hfuel⟩ := hlength
  obtain ⟨⟨m, final⟩, hrun, hsettled⟩ := Option.map_eq_some_iff.mp hfuel
  obtain ⟨hfaults, w, hint, hn⟩ := settledLength_eq_ok hsettled
  have hfollows := eval_filled hunassigned hclean fuel {} frame Relation.ReflTransGen.refl
  obtain ⟨m', final', hrun', ⟨-, rfl⟩, hfilled⟩ :=
    (hfollows {} m final hrun hfaults).2 state ⟨rfl, rfl⟩
  have hvalue : m'.value = .int w := by
    rw [hfilled.value_eq (by rw [hint]; rfl), hint]
  exact ⟨m', w, ⟨fuel, hrun'⟩, hvalue, hn⟩

/-- The second element of a list whose first one is a variable. -/
def secondProgram : Program where
  nodes := #[.int 2, .var "x" .int, .int 3, .arrayLiteral .int ⟨0⟩ ⟨0, 2⟩, .int 1,
    .subscript ⟨3⟩ ⟨4⟩]
  childCells := #[⟨1⟩, ⟨2⟩]

/-- The variable is bound, and not to an integer. -/
def textState : State where
  locals := .ofPairs [("x", .plain (.string "text"))]

theorem static_length_everywhere_secondProgram :
    HasLength secondProgram ⟨5⟩ 3 ∧
    ∃ m w, Evaluates secondProgram { isFunction := true } ⟨5⟩ textState m textState ∧
      m.value = .int w ∧ w.toInt = 3 := by
  have hlength : HasLength secondProgram ⟨5⟩ 3 := ⟨4, rfl⟩
  have hunassigned : ∀ part, secondProgram.Contains ⟨5⟩ part → ∀ target value declares,
      secondProgram.node? part ≠ some (.assign target value declares) := by
    intro part _ target value declares hnode
    have hmem : Node.assign target value declares ∈ secondProgram.nodes :=
      Array.mem_of_getElem? hnode
    simp [secondProgram] at hmem
  have hstate : textState.Everywhere fun m => m.isClean = true := by
    refine ⟨Namespace.everywhere_ofPairs fun pair hpair => ?_, Namespace.everywhere_empty⟩
    rw [List.mem_singleton.mp hpair]
    exact Marked.everywhere_of_parts_eq_nil rfl rfl
  exact ⟨hlength, static_length_everywhere hunassigned hlength { isFunction := true }
    fun name m hm => (hstate.lookup hm).self⟩

end Arbor
