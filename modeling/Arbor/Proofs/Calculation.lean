import Arbor.Proofs.Binding
import Arbor.Proofs.Exact

/-!
# Calculations

A calculation is made of operators over literals and variables.  A fault in one of its operands
does not stop the others; the operator above them finds an undefined operand and records a fault of
its own.  So a calculation either yields a value and leaves the state alone, or it yields undefined
and has recorded faults.

What it yields is computed by `Calculation.run` from the values of the variables.  An integer that
comes out is the one that the calculation has if there are no bounds.

* `Program.Calculates.evaluates` — evaluation of a calculation;
* `Calculation.computes_of_yields` — the integer that a calculation yields is exact;
* `Calculation.run_recomposed_iff` — quotient times divisor and remainder make up the dividend;
* `integers_exact_or_refused` — operators, recomposition and calculations.
-/

namespace Arbor

/-- An expression of operators over values. -/
inductive Calculation where
  | leaf (m : Marked)
  | not (operand : Calculation)
  | binary (op : Operator) (left right : Calculation)

/-- The node is the calculation, over literals and the values of variables. -/
inductive Program.Calculates (program : Program) (values : String → Marked) :
    NodeId → Calculation → Prop where
  | literal {id : NodeId} {node : Node} {m : Marked} (hnode : program.node? id = some node)
    (hliteral : node.literal? = some m) : Calculates program values id (.leaf m)
  | var {id : NodeId} {name : String} {ty : Ty} (hnode : program.node? id = some (.var name ty)) :
    Calculates program values id (.leaf (values name))
  | not {id operand : NodeId} {e : Calculation} (hnode : program.node? id = some (.not operand))
    (hoperand : Calculates program values operand e) : Calculates program values id (.not e)
  | binary {id left right : NodeId} {op : Operator} {l r : Calculation}
    (hnode : program.node? id = some (.binary op left right))
    (hleft : Calculates program values left l) (hright : Calculates program values right r) :
    Calculates program values id (.binary op l r)

/-- What the calculation yields, or why its operator refuses.  An operand that has refused is
undefined. -/
def Calculation.run : Calculation → Except OperatorError Marked
  | .leaf m => .ok m
  | .not operand =>
    (Operator.applyNot (operand.run.toOption.getD .undefined).value).map .plain
  | .binary op left right =>
    (op.apply (left.run.toOption.getD .undefined).value
      (right.run.toOption.getD .undefined).value).map .plain

/-- What the calculation yields; undefined if its operator refuses. -/
def Calculation.yields (e : Calculation) : Marked :=
  e.run.toOption.getD .undefined

variable {program : Program} {frame : Frame} {id left right : NodeId} {op : Operator}
  {state middle final last : State} {l r m : Marked} {e : Calculation}

/-! ### Nodes of operators -/

theorem evaluates_binary (hnode : program.node? id = some (.binary op left right))
    (hleft : Evaluates program frame left state l middle)
    (hright : Evaluates program frame right middle r final)
    (h : Eval.settle id (((op.apply l.value r.value).map .plain).mapError .operator) final =
      some (m, last)) : Evaluates program frame id state m last := by
  rw [evaluates_iff_rule]
  filter_upwards [evaluates_iff_eventually.mp hleft, evaluates_iff_eventually.mp hright]
    with fuel hleft hright
  rw [Eval.rule, hnode]
  refine Run.bind_eq_some_iff.mpr ⟨l, middle, hleft, ?_⟩
  exact Run.bind_eq_some_iff.mpr ⟨r, final, hright, h⟩

theorem State.record_ne (state : State) (fault : Located Fault) : state.record fault ≠ state := by
  intro h
  have hsize := congrArg (fun state => state.faults.size) h
  simp [State.record] at hsize

/-- The outcome of the node is the outcome of the operator. -/
theorem evaluates_binary_iff (hnode : program.node? id = some (.binary op left right))
    (hleft : Evaluates program frame left state l middle)
    (hright : Evaluates program frame right middle r final) :
    (∀ v, Evaluates program frame id state (.plain v) final ↔ op.apply l.value r.value = .ok v) ∧
    ∀ error, Evaluates program frame id state .undefined (final.record ⟨.operator error, id⟩) ↔
      op.apply l.value r.value = .error error := by
  cases happly : op.apply l.value r.value with
  | ok v =>
    have hends : Evaluates program frame id state (.plain v) final :=
      evaluates_binary hnode hleft hright (by rw [happly]; rfl)
    refine ⟨fun v' => ⟨fun h => ?_, fun h => ?_⟩, fun error => ⟨fun h => ?_, nofun⟩⟩
    · exact congrArg (fun m => Except.ok m.value) (hends.unique h).1
    · rwa [← Except.ok.inj h]
    · exact absurd (h.unique hends).2 (State.record_ne _ _)
  | error error =>
    have hends : Evaluates program frame id state .undefined
        (final.record ⟨.operator error, id⟩) :=
      evaluates_binary hnode hleft hright (by rw [happly]; rfl)
    refine ⟨fun v' => ⟨fun h => ?_, nofun⟩, fun error' => ⟨fun h => ?_, fun h => ?_⟩⟩
    · exact absurd (hends.unique h).2 (State.record_ne _ _)
    · have hfault := (Array.push_eq_push.mp (congrArg State.faults (hends.unique h).2)).1
      rw [Fault.operator.inj (congrArg Located.cause hfault)]
    · rwa [← Except.error.inj h]

theorem evaluates_not {operand : NodeId} (hnode : program.node? id = some (.not operand))
    (hoperand : Evaluates program frame operand state l final)
    (h : Eval.settle id (((Operator.applyNot l.value).map .plain).mapError .operator) final =
      some (m, last)) : Evaluates program frame id state m last := by
  have hrule : ∀ fuel, Eval.rule program (eval program fuel) fuel frame id =
      eval program fuel frame operand >>= fun o =>
        Eval.settle id (((Operator.applyNot o.value).map .plain).mapError .operator) := by
    intro fuel
    rw [Eval.rule, hnode]
  exact (evaluates_bind_iff (.of_forall hrule)).mpr ⟨l, final, hoperand, h⟩

/-! ### Evaluation of calculations -/

namespace Calculation

variable {e e' : Calculation} {error : OperatorError}

theorem run_not (e : Calculation) :
    (Calculation.not e).run = (Operator.applyNot e.yields.value).map .plain := rfl

theorem run_binary (op : Operator) (e e' : Calculation) :
    (binary op e e').run = (op.apply e.yields.value e'.yields.value).map .plain := rfl

theorem yields_of_ok (h : e.run = .ok m) : e.yields = m := by
  rw [yields, h]
  rfl

theorem yields_of_error (h : e.run = .error error) : e.yields = .undefined := by
  rw [yields, h]
  rfl

/-- Where a scalar is yielded, no operator has refused. -/
theorem run_eq_ok (h : e.yields.value.isScalar = true) : e.run = .ok e.yields := by
  cases hrun : e.run with
  | ok m => rw [yields_of_ok hrun]
  | error error =>
    rw [yields_of_error hrun] at h
    cases h

/-- A scalar is what the operator of the calculation has yielded. -/
theorem exists_of_isScalar {outcome : Except OperatorError Value}
    (hrun : e.run = outcome.map .plain) (h : e.yields.value.isScalar = true) :
    ∃ v, outcome = .ok v ∧ e.yields = .plain v := by
  cases outcome with
  | ok v => exact ⟨v, rfl, yields_of_ok hrun⟩
  | error error =>
    rw [yields_of_error hrun] at h
    cases h

theorem left_isScalar (h : (binary op e e').yields.value.isScalar = true) :
    e.yields.value.isScalar = true := by
  obtain ⟨v, happly, -⟩ := exists_of_isScalar (run_binary op e e') h
  exact (Operator.operands_isScalar happly).1

/-- Settling the operator of a calculation yields what the calculation yields. -/
theorem exists_settle {outcome : Except OperatorError Value} {faults : List (Located Fault)}
    (hrun : e.run = outcome.map .plain) (hfaults : ∀ v, outcome = .ok v → faults = [])
    (id : NodeId) (state : State) : ∃ recorded : List (Located Fault),
      Eval.settle id ((outcome.map .plain).mapError .operator) (state.recordAll faults) =
        some (e.yields, state.recordAll recorded) ∧
      (recorded = [] ↔ e.run = .ok e.yields) := by
  cases outcome with
  | ok v =>
    have hok : e.run = .ok (.plain v) := hrun
    rw [yields_of_ok hok]
    exact ⟨faults, rfl, iff_of_true (hfaults v rfl) hok⟩
  | error error =>
    have herror : e.run = .error error := hrun
    rw [yields_of_error herror, herror]
    refine ⟨faults ++ [⟨.operator error, id⟩], ?_, iff_of_false (by simp) nofun⟩
    rw [State.recordAll_append, State.recordAll_singleton]
    rfl

end Calculation

namespace Program.Calculates

variable {values : String → Marked}

/-- A calculation yields what it runs to, and records a fault if and only if an operator refuses. -/
theorem evaluates (h : program.Calculates values id e) (frame : Frame)
    (hstate : state.read = values) : ∃ recorded : List (Located Fault),
      Evaluates program frame id state e.yields (state.recordAll recorded) ∧
      (recorded = [] ↔ e.run = .ok e.yields) := by
  induction h generalizing state with
  | literal hnode hliteral =>
    refine ⟨[], ?_, iff_of_true rfl rfl⟩
    rw [State.recordAll_nil]
    exact evaluates_literal hnode hliteral
  | var hnode =>
    refine ⟨[], ?_, iff_of_true rfl rfl⟩
    subst hstate
    rw [State.recordAll_nil]
    exact evaluates_var hnode frame state
  | @not id operand e hnode _ ih =>
    obtain ⟨faults, hoperand, hnone⟩ := ih hstate
    have hfaults : ∀ v, Operator.applyNot e.yields.value = .ok v → faults = [] := by
      intro v hv
      obtain ⟨b, hb, -⟩ := Operator.applyNot_eq_ok hv
      exact hnone.mpr (Calculation.run_eq_ok (by rw [hb]; rfl))
    obtain ⟨recorded, hsettle, hiff⟩ := Calculation.exists_settle e.run_not hfaults id state
    exact ⟨recorded, evaluates_not hnode hoperand hsettle, hiff⟩
  | @binary id left right op e e' hnode _ _ ihleft ihright =>
    obtain ⟨faults, hleft, hnone⟩ := ihleft hstate
    -- The right operand starts from what the left one has recorded.
    have hkept : (state.recordAll faults).read = values := hstate
    obtain ⟨more, hright, hnomore⟩ := ihright hkept
    rw [← State.recordAll_append] at hright
    have hfaults : ∀ v, op.apply e.yields.value e'.yields.value = .ok v → faults ++ more = [] := by
      intro v hv
      obtain ⟨hscalar, hscalar'⟩ := Operator.operands_isScalar hv
      rw [hnone.mpr (Calculation.run_eq_ok hscalar), hnomore.mpr (Calculation.run_eq_ok hscalar'),
        List.append_nil]
    obtain ⟨recorded, hsettle, hiff⟩ :=
      Calculation.exists_settle (Calculation.run_binary op e e') hfaults id state
    exact ⟨recorded, evaluates_binary hnode hleft hright hsettle, hiff⟩

/-- A calculation that leaves the state alone is one in which no operator refuses. -/
theorem evaluates_iff (h : program.Calculates state.read id e) :
    Evaluates program frame id state m state ↔ e.run = .ok m := by
  obtain ⟨recorded, hends, hnone⟩ := h.evaluates frame rfl
  constructor
  · intro hm
    obtain ⟨rfl, hstate⟩ := hm.unique hends
    exact hnone.mp (State.faults_recordAll_eq_iff.mp (congrArg State.faults hstate.symm))
  · intro hrun
    obtain rfl := Calculation.yields_of_ok hrun
    rwa [hnone.mpr hrun, State.recordAll_nil] at hends

/-- A calculation that yields a scalar leaves the state alone. -/
theorem eq_of_isScalar (h : program.Calculates state.read id e)
    (hends : Evaluates program frame id state m final) (hm : m.value.isScalar = true) :
    final = state ∧ e.run = .ok m := by
  obtain ⟨recorded, hyields, hnone⟩ := h.evaluates frame rfl
  obtain ⟨rfl, rfl⟩ := hends.unique hyields
  have hrun := Calculation.run_eq_ok hm
  rw [hnone.mpr hrun, State.recordAll_nil]
  exact ⟨rfl, hrun⟩

end Program.Calculates

/-! ### Integers of calculations -/

/-- The integer that the calculation has if there are no bounds. -/
inductive Calculation.Computes : Calculation → Int → Prop where
  | leaf {m : Marked} {n : Int64} (hm : m.value = .int n) : Computes (.leaf m) n.toInt
  | binary {op : Operator} {left right : Calculation} {a b n : Int} (hleft : Computes left a)
    (hright : Computes right b) (h : op.Computes a b n) : Computes (.binary op left right) n

namespace Calculation

variable {e e' dividend divisor : Calculation} {a b w : Int64} {v : Value}

/-- The integer that a calculation yields is the one it has without bounds. -/
theorem computes_of_yields (h : e.yields.value = .int w) : e.Computes w.toInt := by
  induction e generalizing w with
  | leaf m => exact .leaf h
  | not operand =>
    obtain ⟨v, hnot, hyields⟩ := exists_of_isScalar operand.run_not (by rw [h]; rfl)
    obtain ⟨b, -, rfl⟩ := Operator.applyNot_eq_ok hnot
    rw [hyields] at h
    cases h
  | binary op left right ihleft ihright =>
    obtain ⟨v, happly, hyields⟩ := exists_of_isScalar (run_binary op left right) (by rw [h]; rfl)
    rw [hyields] at h
    obtain rfl : v = .int w := h
    obtain ⟨hop, a, b, ha, hb, hint⟩ := Operator.apply_eq_int happly
    have hcomputes := ((Operator.applyInt_outcome hop a b).eq_ok_iff.mp hint).1
    exact .binary (ihleft ha) (ihright hb) hcomputes

/-- `((a / b) * b) + (a % b) == a` -/
def recomposed (dividend divisor : Calculation) : Calculation :=
  .binary .eq (.binary .add (.binary .mul (.binary .div dividend divisor) divisor)
    (.binary .mod dividend divisor)) dividend

theorem yields_binary (hleft : e.yields.value = .int a) (hright : e'.yields.value = .int b)
    (h : op.applyInt a b = .ok v) : (binary op e e').yields.value = v := by
  have hrun : (binary op e e').run = .ok (.plain v) := by
    rw [run_binary, hleft, hright, Operator.apply, h]
    rfl
  rw [yields_of_ok hrun]
  rfl

theorem run_recomposed_iff (hdividend : dividend.yields.value = .int a)
    (hdivisor : divisor.yields.value = .int b) :
    (recomposed dividend divisor).run = .ok (.plain (.bool true)) ↔
      b ≠ 0 ∧ ¬ (a = Int64.minValue ∧ b = -1) := by
  constructor
  · intro h
    have hscalar : (recomposed dividend divisor).yields.value.isScalar = true := by
      rw [yields_of_ok h]
      rfl
    -- The quotient is the leftmost operand.
    obtain ⟨v, hquotient, -⟩ := exists_of_isScalar (run_binary ..)
      (left_isScalar (left_isScalar (left_isScalar hscalar)))
    rw [hdividend, hdivisor] at hquotient
    obtain ⟨q, hq⟩ | ⟨error, herror, -⟩ :=
      (Operator.applyInt_div_outcome a b).word_or_arithmetic
    · have hcomputes := ((Operator.applyInt_div_outcome a b).eq_ok_iff.mp hq).1
      obtain ⟨hb, hq⟩ := Operator.computes_div_iff.mp hcomputes
      exact ⟨hb, (Operator.isWord_tdiv_iff hb).mp (hq ▸ isWord_toInt q)⟩
    · cases herror.symm.trans hquotient
  · rintro ⟨hb, hleast⟩
    have hdivision := truncatedDivision_tdiv_tmod a.toInt (mt Operator.toInt_eq_zero_iff.mp hb)
    have ha := isWord_toInt a
    obtain ⟨q, hq⟩ := isWord_iff.mp ((Operator.isWord_tdiv_iff hb).mpr hleast)
    obtain ⟨r, hr⟩ := isWord_iff.mp (hdivision.isWord_remainder ha)
    rw [← hq, ← hr] at hdivision
    obtain ⟨p, hp⟩ := isWord_iff.mp (hdivision.isWord_product ha)
    have hquotient : Operator.div.applyInt a b = .ok (.int q) :=
      (Operator.applyInt_outcome rfl a b).eq_ok_iff.mpr ⟨.div hdivision, nofun⟩
    have hproduct : Operator.mul.applyInt q b = .ok (.int p) :=
      (Operator.applyInt_outcome rfl q b).eq_ok_iff.mpr ⟨hp ▸ .mul .., nofun⟩
    have hremainder : Operator.mod.applyInt a b = .ok (.int r) :=
      (Operator.applyInt_outcome rfl a b).eq_ok_iff.mpr ⟨.mod hdivision, fun h => hleast h.2⟩
    have hsum : Operator.add.applyInt p r = .ok (.int a) := by
      rw [(Operator.applyInt_outcome rfl p r).eq_ok_iff, hdivision.eq, ← hp]
      exact ⟨.add .., nofun⟩
    have hleft := yields_binary (yields_binary hdividend hdivisor hquotient) hdivisor hproduct
    have hright := yields_binary hdividend hdivisor hremainder
    rw [recomposed, run_binary, yields_binary hleft hright hsum, hdividend]
    show (Except.ok (Value.bool (a == a))).map Marked.plain = _
    rw [beq_self_eq_true]
    rfl

end Calculation

/-! ### Integers of nodes -/

/-- What a node does that applies an arithmetic operator to these words; its operands have led to
the state `after`. -/
structure ExactOrRefused (program : Program) (frame : Frame) (id : NodeId) (op : Operator)
    (a b : Int64) (state after : State) : Prop where
  exact : ∀ w : Int64, Evaluates program frame id state (.plain (.int w)) after ↔
    op.Computes a.toInt b.toInt w.toInt ∧ ¬ op.Excepts a b
  overflow :
    Evaluates program frame id state .undefined (after.record ⟨.operator (.overflow op), id⟩) ↔
      (op ≠ .mod ∧ ∃ n, op.Computes a.toInt b.toInt n ∧ ¬ IsWord n) ∨ op.Excepts a b
  byZero :
    Evaluates program frame id state .undefined (after.record ⟨.operator op.zeroDivisor, id⟩) ↔
      op.Divides ∧ b = 0
  /-- Nothing else happens, and what is recorded is an arithmetic fault. -/
  outcome : (∃ w, Evaluates program frame id state (.plain (.int w)) after) ∨
    ∃ fault : Fault, fault.kind = .arithmetic ∧
      Evaluates program frame id state .undefined (after.record ⟨fault, id⟩)

theorem exactOrRefused {a b : Int64} (hop : op.isArithmetic = true)
    (hnode : program.node? id = some (.binary op left right))
    (hleft : Evaluates program frame left state l middle) (ha : l.value = .int a)
    (hright : Evaluates program frame right middle r final) (hb : r.value = .int b) :
    ExactOrRefused program frame id op a b state final := by
  obtain ⟨hok, herror⟩ := evaluates_binary_iff hnode hleft hright
  rw [ha, hb] at hok herror
  have houtcome := Operator.applyInt_outcome hop a b
  refine ⟨fun w => (hok _).trans houtcome.eq_ok_iff, (herror _).trans houtcome.eq_overflow_iff,
    (herror _).trans houtcome.eq_zeroDivisor_iff, ?_⟩
  obtain ⟨w, hw⟩ | ⟨error, herror', hkind⟩ := houtcome.word_or_arithmetic
  · exact .inl ⟨w, (hok _).mpr hw⟩
  · exact .inr ⟨.operator error, if_pos hkind, (herror _).mpr herror'⟩

/-- **Integers are exact or refused.**  An arithmetic operator applied to two words yields the
integer that it computes if a word holds it, and records an arithmetic fault otherwise; so it does
for the remainder of the least word by minus one, and for quotients and remainders by zero.
Quotient times divisor and remainder make up the dividend again, wherever there is a quotient.  An
integer that evaluation yields is a word, and if a calculation yields it, it is the exact one and no
fault is recorded. -/
theorem integers_exact_or_refused (program : Program) (frame : Frame) (state : State) :
    (∀ id op left right l middle r after (a b : Int64), op.isArithmetic = true →
      program.node? id = some (.binary op left right) →
      Evaluates program frame left state l middle → l.value = .int a →
      Evaluates program frame right middle r after → r.value = .int b →
        ExactOrRefused program frame id op a b state after) ∧
    (∀ id (dividend divisor : Calculation) (a b : Int64),
      dividend.yields.value = .int a → divisor.yields.value = .int b →
      program.Calculates state.read id (.recomposed dividend divisor) →
        (Evaluates program frame id state (.plain (.bool true)) state ↔
          b ≠ 0 ∧ ¬ (a = Int64.minValue ∧ b = -1))) ∧
    ∀ id m final (w : Int64), Evaluates program frame id state m final → m.value = .int w →
      IsWord w.toInt ∧
      ∀ e, program.Calculates state.read id e → final = state ∧ e.Computes w.toInt := by
  refine ⟨?_, ?_, ?_⟩
  · intro id op left right l middle r after a b hop hnode hleft ha hright hb
    exact exactOrRefused hop hnode hleft ha hright hb
  · intro id dividend divisor a b ha hb hcalculates
    rw [hcalculates.evaluates_iff, Calculation.run_recomposed_iff ha hb]
  · intro id m final w hends hw
    refine ⟨isWord_toInt w, fun e hcalculates => ?_⟩
    obtain ⟨hfinal, hrun⟩ := hcalculates.eq_of_isScalar hends (by rw [hw]; rfl)
    refine ⟨hfinal, Calculation.computes_of_yields ?_⟩
    rw [Calculation.yields_of_ok hrun, hw]

/-- `((a / 3) * 3) + (a % 3) == a`, and `a % -1`. -/
def leastProgram : Program where
  nodes := #[.var "a" .int, .int 3, .binary .div ⟨0⟩ ⟨1⟩, .binary .mul ⟨2⟩ ⟨1⟩,
    .binary .mod ⟨0⟩ ⟨1⟩, .binary .add ⟨3⟩ ⟨4⟩, .binary .eq ⟨5⟩ ⟨0⟩, .int (-1),
    .binary .mod ⟨0⟩ ⟨7⟩]

/-- The variable is the least word. -/
def leastState : State where
  globals := .ofPairs [("a", .plain (.int Int64.minValue))]

theorem integers_exact_or_refused_leastProgram :
    let refused : Located Fault := ⟨.operator (.overflow .mod), ⟨8⟩⟩
    let a : Calculation := .leaf (leastState.read "a")
    let three : Calculation := .leaf (.plain (.int 3))
    leastProgram.Calculates leastState.read ⟨6⟩ (.recomposed a three) ∧
    Evaluates leastProgram {} ⟨6⟩ leastState (.plain (.bool true)) leastState ∧
    Evaluates leastProgram {} ⟨8⟩ leastState .undefined (leastState.record refused) ∧
    ∃ w : Int64, Evaluates leastProgram {} ⟨3⟩ leastState (.plain (.int w)) leastState ∧
      (Calculation.binary .mul (.binary .div a three) three).Computes w.toInt := by
  intro refused a three
  obtain ⟨hoperators, hrecomposed, hcalculations⟩ :=
    integers_exact_or_refused leastProgram {} leastState
  have hvar : leastProgram.Calculates leastState.read ⟨0⟩ a := .var (show _ = some _ from rfl)
  have hthree : leastProgram.Calculates leastState.read ⟨1⟩ three := .literal rfl rfl
  have hproduct : leastProgram.Calculates leastState.read ⟨3⟩
      (.binary .mul (.binary .div a three) three) := .binary rfl (.binary rfl hvar hthree) hthree
  have hcalculates : leastProgram.Calculates leastState.read ⟨6⟩ (.recomposed a three) :=
    .binary rfl (.binary rfl hproduct (.binary rfl hvar hthree)) hvar
  have hquotient : Evaluates leastProgram {} ⟨3⟩ leastState
      (.plain (.int (-9223372036854775806))) leastState := ⟨3, rfl⟩
  have hleast : Evaluates leastProgram {} ⟨0⟩ leastState (.plain (.int Int64.minValue))
      leastState := ⟨1, rfl⟩
  have hminus : Evaluates leastProgram {} ⟨7⟩ leastState (.plain (.int (-1))) leastState :=
    ⟨1, rfl⟩
  have hremainder := hoperators ⟨8⟩ .mod ⟨0⟩ ⟨7⟩ _ _ _ _ Int64.minValue (-1) rfl rfl hleast rfl
    hminus rfl
  refine ⟨hcalculates, ?_, hremainder.overflow.mpr (.inr ⟨rfl, rfl, rfl⟩), _, hquotient, ?_⟩
  · exact (hrecomposed ⟨6⟩ a three Int64.minValue 3 rfl rfl hcalculates).mpr (by decide)
  · exact ((hcalculations ⟨3⟩ _ _ _ hquotient rfl).2 _ hproduct).2

end Arbor
