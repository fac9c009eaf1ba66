import Arbor.Eval.Default
import Mathlib.Data.List.Forall2

/-!
# Ensured outcomes

`Run.Ensures run state post` says that whatever `run` yields from `state`, and
wherever it ends, satisfies `post`.  A run that lacks fuel ensures everything:
the statement is about the outcomes there are.

Each way to build a run has one law, and all of them but the law for a list of
runs are equivalences, so a rule of the evaluator is opened by rewriting.

* `Run.ensures_bind` — a sequence ensures what its second part ensures from
  every outcome of the first;
* `Run.ensures_mapM` — an invariant of the single runs of a list is one of the
  whole list, and relates each cause to its outcome.
-/

namespace Arbor.Run

variable {α β : Type} {state : State}

/-- Every outcome of `run` from `state` satisfies `post`. -/
def Ensures (run : Run α) (state : State) (post : α → State → Prop) : Prop :=
  ∀ a final, run state = some (a, final) → post a final

theorem Ensures.imp {run : Run α} {post post' : α → State → Prop}
    (h : Ensures run state post) (himp : ∀ a final, post a final → post' a final) :
    Ensures run state post' :=
  fun a final hrun => himp a final (h a final hrun)

@[simp] theorem ensures_pure {a : α} {post : α → State → Prop} :
    Ensures (pure a) state post ↔ post a state := by
  constructor
  · intro h
    exact h a state rfl
  · intro h b final hrun
    cases hrun
    exact h

@[simp] theorem ensures_bind {run : Run α} {next : α → Run β} {post : β → State → Prop} :
    Ensures (run >>= next) state post ↔
      Ensures run state fun a middle => Ensures (next a) middle post := by
  constructor
  · intro h a middle hrun b final hnext
    exact h b final (bind_eq_some_iff.mpr ⟨a, middle, hrun, hnext⟩)
  · intro h b final hboth
    obtain ⟨a, middle, hrun, hnext⟩ := bind_eq_some_iff.mp hboth
    exact h a middle hrun b final hnext

@[simp] theorem ensures_map {change : α → β} {run : Run α} {post : β → State → Prop} :
    Ensures (change <$> run) state post ↔
      Ensures run state fun a final => post (change a) final := by
  rw [map_eq_pure_bind, ensures_bind]
  simp only [ensures_pure]

@[simp] theorem ensures_discard {run : Run α} {post : Unit → State → Prop} :
    Ensures (discard run) state post ↔ Ensures run state fun _ final => post () final :=
  ensures_map

@[simp] theorem ensures_get {post : State → State → Prop} :
    Ensures get state post ↔ post state state :=
  ensures_pure (a := state)

@[simp] theorem ensures_set {new : State} {post : Unit → State → Prop} :
    Ensures (set new) state post ↔ post () new :=
  (ensures_pure : Ensures (pure ()) new post ↔ post () new)

@[simp] theorem ensures_modify {change : State → State} {post : Unit → State → Prop} :
    Ensures (modify change) state post ↔ post () (change state) :=
  (ensures_pure : Ensures (pure ()) (change state) post ↔ post () (change state))

@[simp] theorem ensures_report {fault : Fault} {node : NodeId} {post : Unit → State → Prop} :
    Ensures (report fault node) state post ↔ post () (state.record ⟨fault, node⟩) :=
  ensures_modify

@[simp] theorem ensures_fail {fault : Fault} {node : NodeId} {post : Marked → State → Prop} :
    Ensures (fail fault node) state post ↔ post .undefined (state.record ⟨fault, node⟩) := by
  rw [fail, ensures_bind, ensures_report, ensures_pure]

@[simp] theorem ensures_outOfFuel {post : α → State → Prop} :
    Ensures (outOfFuel : Run α) state post ↔ True := by
  apply iff_true_intro
  intro a final hrun
  cases hrun

@[simp] theorem ensures_aside {computed : Option α} {post : α → State → Prop} :
    Ensures (aside computed) state post ↔ ∀ a, computed = some a → post a state := by
  constructor
  · intro h a ha
    exact h a state (by rw [aside_apply, ha]; rfl)
  · intro h a final hrun
    obtain ⟨b, hb, heq⟩ := Option.map_eq_some_iff.mp hrun
    cases heq
    exact h _ hb

@[simp] theorem ensures_sizing {computed : Sizing α}
    {post : Except DefaultFault α → State → Prop} :
    Ensures (sizing computed) state post ↔
      ∀ outcome, computed.run = some outcome → post outcome state :=
  ensures_aside

/-- If each run of a list keeps an invariant of the state, so does the list, and each cause is
related to its outcome. -/
theorem ensures_mapM {run : α → Run β} {causes : List α} {Inv : State → Prop}
    (Rel : α → β → Prop)
    (hrun : ∀ a ∈ causes, ∀ state, Inv state →
      Ensures (run a) state fun b final => Rel a b ∧ Inv final)
    (h : Inv state) :
    Ensures (causes.mapM run) state fun outcomes final =>
      List.Forall₂ Rel causes outcomes ∧ Inv final := by
  induction causes generalizing state with
  | nil => simpa using h
  | cons a rest ih =>
    obtain ⟨hhead, hrest⟩ := List.forall_mem_cons.mp hrun
    rw [List.mapM_cons]
    simp only [ensures_bind, ensures_pure]
    refine (hhead state h).imp ?_
    intro b middle hpost
    obtain ⟨hb, hmiddle⟩ := hpost
    refine (ih hrest hmiddle).imp ?_
    intro bs final hpost
    obtain ⟨hbs, hfinal⟩ := hpost
    exact ⟨.cons hb hbs, hfinal⟩

end Arbor.Run
