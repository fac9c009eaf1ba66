import Arbor.Proofs.Ensures

/-!
# Two runs side by side

`Run.Matches lacking related pre run run' post` compares two runs.  From related
states, of which the first satisfies `pre`, both yield the same, end in related
states, and `post` holds of the outcome.  They may also lack fuel together, but
only if `lacking` allows it; so a run that matches itself where `lacking` is
false always has an outcome.

There is one law for each way to build a run.  The law for a sequence hands the
`post` of the first part to the second, so an invariant of the first run can be
used while both are followed.

* `Run.Matches.bind`, `Run.Matches.mapM` — sequences and lists of runs;
* `Run.matches_eq_iff` — from equal states, two runs match if they do the same.
-/

namespace Arbor.Run

variable {α β : Type} {lacking : Prop} {related : State → State → Prop} {pre : State → Prop}

/-- Both runs yield the same, in related states, unless both are allowed to lack fuel and do. -/
def Matches (lacking : Prop) (related : State → State → Prop) (pre : State → Prop)
    (run run' : Run α) (post : α → State → Prop) : Prop :=
  ∀ state state', pre state → related state state' →
    (lacking ∧ run state = none ∧ run' state' = none) ∨
    ∃ a final final', run state = some (a, final) ∧ run' state' = some (a, final') ∧
      related final final' ∧ post a final

theorem Matches.imp {run run' : Run α} {post post' : α → State → Prop}
    (h : Matches lacking related pre run run' post)
    (himp : ∀ a final, post a final → post' a final) :
    Matches lacking related pre run run' post' := by
  intro state state' hstate hrelated
  refine (h state state' hstate hrelated).imp_right ?_
  intro hended
  obtain ⟨a, final, final', hrun, hrun', hfinal, hpost⟩ := hended
  exact ⟨a, final, final', hrun, hrun', hfinal, himp a final hpost⟩

/-- Nothing need be said of the outcome. -/
theorem Matches.any {run run' : Run α} {post : α → State → Prop}
    (h : Matches lacking related pre run run' post) :
    Matches lacking related pre run run' fun _ _ => True :=
  h.imp fun _ _ _ => trivial

/-- What the first run ensures holds of the outcome. -/
theorem Matches.ensures {run run' : Run α} {post post' : α → State → Prop}
    (h : Matches lacking related pre run run' post)
    (hensures : ∀ state, pre state → run.Ensures state post') :
    Matches lacking related pre run run' post' := by
  intro state state' hstate hrelated
  refine (h state state' hstate hrelated).imp_right ?_
  intro hended
  obtain ⟨a, final, final', hrun, hrun', hfinal, -⟩ := hended
  exact ⟨a, final, final', hrun, hrun', hfinal, hensures state hstate a final hrun⟩

/-- From equal states, two runs match if they do the same. -/
theorem matches_eq_iff {run run' : Run α} {post : α → State → Prop} :
    Matches lacking Eq pre run run' post ↔ ∀ state, pre state →
      run' state = run state ∧ (lacking ∨ (run state).isSome) ∧ run.Ensures state post := by
  constructor
  · intro h state hstate
    rcases h state state hstate rfl with ⟨hlacking, hrun, hrun'⟩ |
      ⟨a, final, final', hrun, hrun', rfl, hpost⟩
    · rw [Ensures, hrun, hrun']
      exact ⟨rfl, .inl hlacking, nofun⟩
    · rw [Ensures, hrun, hrun']
      refine ⟨rfl, .inr rfl, fun b reached hreached => ?_⟩
      cases hreached
      exact hpost
  · intro h state state' hstate heq
    subst heq
    obtain ⟨hsame, hsome, hpost⟩ := h state hstate
    cases hrun : run state with
    | none =>
      rw [hrun] at hsome hsame
      exact .inl ⟨hsome.resolve_right nofun, rfl, hsame⟩
    | some reached =>
      rw [hrun] at hsame
      exact .inr ⟨reached.1, reached.2, reached.2, rfl, hsame, rfl,
        hpost reached.1 reached.2 hrun⟩

theorem matches_pure {a : α} {post : α → State → Prop} (h : ∀ state, pre state → post a state) :
    Matches lacking related pre (pure a) (pure a) post :=
  fun state state' hstate hrelated =>
    .inr ⟨a, state, state', rfl, rfl, hrelated, h state hstate⟩

/-- Something read off the state, on which related states agree. -/
theorem matches_read {read : State → α} {post : α → State → Prop}
    (h : ∀ state state', pre state → related state state' →
      read state' = read state ∧ post (read state) state) :
    Matches lacking related pre (get >>= fun state => pure (read state))
      (get >>= fun state => pure (read state)) post := by
  intro state state' hstate hrelated
  obtain ⟨hread, hpost⟩ := h state state' hstate hrelated
  refine .inr ⟨read state, state, state', rfl, ?_, hrelated, hpost⟩
  rw [← hread]
  rfl

theorem matches_modify {change change' : State → State} {post : Unit → State → Prop}
    (h : ∀ state state', pre state → related state state' →
      related (change state) (change' state') ∧ post () (change state)) :
    Matches lacking related pre (modify change) (modify change') post :=
  fun state state' hstate hrelated => .inr ⟨(), change state, change' state', rfl, rfl,
    h state state' hstate hrelated⟩

/-- Computed beside the state, in the same way. -/
theorem matches_aside {computed computed' : Option α} (heq : computed' = computed)
    (h : lacking ∨ computed.isSome) :
    Matches lacking related pre (aside computed) (aside computed') fun _ => pre := by
  subst heq
  intro state state' hstate hrelated
  cases computed' with
  | none => exact .inl ⟨h.resolve_right nofun, rfl, rfl⟩
  | some a => exact .inr ⟨a, state, state', rfl, rfl, hrelated, hstate⟩

theorem matches_outOfFuel {post : α → State → Prop} (h : lacking) :
    Matches lacking related pre (outOfFuel : Run α) outOfFuel post :=
  fun _ _ _ _ => .inl ⟨h, rfl, rfl⟩

theorem Matches.bind {run run' : Run α} {next next' : α → Run β} {middle : α → State → Prop}
    {post : β → State → Prop} (h : Matches lacking related pre run run' middle)
    (hnext : ∀ a, Matches lacking related (middle a) (next a) (next' a) post) :
    Matches lacking related pre (run >>= next) (run' >>= next') post := by
  intro state state' hstate hrelated
  rw [bind_apply, bind_apply]
  rcases h state state' hstate hrelated with ⟨hlacking, hrun, hrun'⟩ |
    ⟨a, reached, reached', hrun, hrun', hreached, hmiddle⟩
  · rw [hrun, hrun']
    exact .inl ⟨hlacking, rfl, rfl⟩
  · rw [hrun, hrun']
    exact hnext a reached reached' hmiddle hreached

/-- The second part may use what is known of the first part's value. -/
theorem Matches.bind_of {run run' : Run α} {next next' : α → Run β} {holds : α → Prop}
    {middle : State → Prop} {post : β → State → Prop}
    (h : Matches lacking related pre run run' fun a state => holds a ∧ middle state)
    (hnext : ∀ a, holds a → Matches lacking related middle (next a) (next' a) post) :
    Matches lacking related pre (run >>= next) (run' >>= next') post :=
  h.bind fun a state state' hstate => hnext a hstate.1 state state' hstate.2

theorem Matches.map {run run' : Run α} {post : β → State → Prop} (change : α → β)
    (h : Matches lacking related pre run run' fun a => post (change a)) :
    Matches lacking related pre (change <$> run) (change <$> run') post := by
  rw [map_eq_pure_bind, map_eq_pure_bind]
  exact h.bind fun a => matches_pure fun _ hpost => hpost

/-- If the runs of two lists match one by one, so do the lists. -/
theorem Matches.mapM {run run' : α → Run β} {causes : List α} {holds : β → Prop}
    (h : ∀ a ∈ causes,
      Matches lacking related pre (run a) (run' a) fun b final => holds b ∧ pre final) :
    Matches lacking related pre (causes.mapM run) (causes.mapM run') fun outcomes final =>
      (∀ b ∈ outcomes, holds b) ∧ pre final := by
  induction causes with
  | nil => exact matches_pure fun state hstate => ⟨nofun, hstate⟩
  | cons a rest ih =>
    obtain ⟨hhead, hrest⟩ := List.forall_mem_cons.mp h
    rw [List.mapM_cons, List.mapM_cons]
    refine hhead.bind_of fun b hb => (ih hrest).bind_of fun bs hbs => ?_
    exact matches_pure fun state hstate => ⟨List.forall_mem_cons.mpr ⟨hb, hbs⟩, hstate⟩

end Arbor.Run
