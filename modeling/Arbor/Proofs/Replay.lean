import Arbor.Proofs.Equality
import Mathlib.Logic.Function.Basic

/-!
# Namespaces as finite maps

A namespace is edited in four ways: a value is stored, a slot is overwritten, a name is
removed, or a namespace is extended by pairs.  Each edit does to the lookups what it
would do to a plain function from names to values: storing puts a clean copy under the
name, overwriting puts the value there as it is, if the name is bound, and removing
makes the name unbound.  So any edits, one after another, come to the same as replaying
them on that function.

Names are listed in ascending order, and comparing two namespaces is comparing their
lookups, so nothing remains of the order in which they were filled.  In particular a
namespace may be copied variable by variable in any order.  The copy has no marks, and
it equals the original unless a value does not equal itself.

* `Namespace.get?_perform`, `Namespace.get?_performAll` — one edit, and any edits;
* `Namespace.get?_copy` — copying in any order;
* `Bindings.Every.performAll` — what the values have in common;
* `edits_replay` — all this together.
-/

namespace Arbor

/-! ### Edits -/

/-- What can be done to a namespace. -/
inductive Edit where
  | save (name : String) (m : Marked)
  | overwrite (name : String) (m : Marked)
  | remove (name : String)
  | extend (pairs : Entries Marked)

namespace Edit

/-- The values that an edit brings along. -/
def values : Edit → List Marked
  | save _ m => [m]
  | overwrite _ m => [m]
  | remove _ => []
  | extend pairs => pairs.map (·.2)

/-- Perform edits one after another, and collect their answers. -/
def runAll {σ : Type} (perform : σ → Edit → Option Marked × σ) (state : σ) :
    List Edit → List (Option Marked) × σ
  | [] => ([], state)
  | edit :: rest =>
    let performed := perform state edit
    let more := runAll perform performed.2 rest
    (performed.1 :: more.1, more.2)

/-- What one edit does to a view of the state determines what all do to it. -/
theorem runAll_view {σ τ : Type} {perform : σ → Edit → Option Marked × σ}
    {perform' : τ → Edit → Option Marked × τ} {view : σ → τ}
    (h : ∀ state edit, perform' (view state) edit =
      ((perform state edit).1, view (perform state edit).2)) (state : σ) (edits : List Edit) :
    runAll perform' (view state) edits =
      ((runAll perform state edits).1, view (runAll perform state edits).2) := by
  induction edits generalizing state with
  | nil => rfl
  | cons edit rest ih => rw [runAll, h, ih, runAll]

end Edit

namespace Namespace

/-- Perform an edit. Overwriting and removing answer with what was found under the name. -/
def perform (scope : Namespace) : Edit → Option Marked × Namespace
  | .save name m => (none, scope.save name m)
  | .overwrite name m => (scope.get? name, (scope.overwrite? name m).getD scope)
  | .remove name => (scope.get? name, scope.erase name)
  | .extend pairs => (none, scope.extend pairs)

/-- Perform edits one after another. -/
def performAll (scope : Namespace) (edits : List Edit) : List (Option Marked) × Namespace :=
  Edit.runAll perform scope edits

end Namespace

/-! ### Replaying -/

/-- What every name is bound to. -/
abbrev Bindings := String → Option Marked

namespace Bindings

/-- Bind a name to a clean copy. -/
def save (bound : Bindings) (name : String) (m : Marked) : Bindings :=
  Function.update bound name (some m.cleaned)

/-- What an edit comes to. -/
def perform (bound : Bindings) : Edit → Option Marked × Bindings
  | .save name m => (none, bound.save name m)
  | .overwrite name m =>
    (bound name, if (bound name).isSome then Function.update bound name (some m) else bound)
  | .remove name => (bound name, Function.update bound name none)
  | .extend pairs => (none, pairs.foldl (fun bound pair => bound.save pair.1 pair.2) bound)

/-- Replay edits one after another. -/
def performAll (bound : Bindings) (edits : List Edit) : List (Option Marked) × Bindings :=
  Edit.runAll perform bound edits

end Bindings

namespace NameMap

variable {α : Type} (map : NameMap α) (name : String)

theorem get?_insert (a : α) :
    (map.insert name a).get? = Function.update map.get? name (some a) := by
  funext other
  by_cases h : other = name
  · rw [h, get?_insert_self, Function.update_self]
  · rw [get?_insert_of_ne map h, Function.update_of_ne h]

theorem get?_erase : (map.erase name).get? = Function.update map.get? name none := by
  funext other
  by_cases h : other = name
  · rw [h, get?_erase_self, Function.update_self]
  · rw [get?_erase_of_ne map h, Function.update_of_ne h]

end NameMap

namespace Namespace

variable (scope : Namespace)

theorem get?_save (name : String) (m : Marked) :
    (scope.save name m).get? = Bindings.save scope.get? name m :=
  scope.get?_insert name m.cleaned

theorem get?_extend (pairs : Entries Marked) :
    (scope.extend pairs).get? =
      pairs.foldl (fun bound pair => Bindings.save bound pair.1 pair.2) scope.get? := by
  induction pairs generalizing scope with
  | nil => rfl
  | cons pair rest ih =>
    rw [List.foldl_cons, ← get?_save]
    exact ih (scope.save pair.1 pair.2)

/-- One edit does to the lookups what it comes to. -/
theorem get?_perform (edit : Edit) :
    Bindings.perform scope.get? edit =
      ((scope.perform edit).1, (scope.perform edit).2.get?) := by
  cases edit with
  | save name m => rw [perform, get?_save, Bindings.perform]
  | overwrite name m =>
    rw [perform, overwrite?, Bindings.perform, NameMap.contains]
    split
    · rw [Option.getD_some, NameMap.get?_insert]
    · rw [Option.getD_none]
  | remove name => rw [perform, NameMap.get?_erase, Bindings.perform]
  | extend pairs => rw [perform, get?_extend, Bindings.perform]

/-- Any edits do to the lookups what they come to. -/
theorem get?_performAll (edits : List Edit) :
    Bindings.performAll scope.get? edits =
      ((scope.performAll edits).1, (scope.performAll edits).2.get?) :=
  Edit.runAll_view get?_perform scope edits

end Namespace

/-! ### Values -/

/-- Whatever marks the value itself carries, nothing nested in it carries any. -/
def Marked.CleanInside (m : Marked) : Prop :=
  m.cleaned.Everywhere fun inner => inner.isClean = true

namespace Bindings

variable {P : Marked → Prop} {bound : Bindings}

/-- `P` holds of every value. -/
def Every (P : Marked → Prop) (bound : Bindings) : Prop :=
  ∀ name m, bound name = some m → P m

theorem every_get? {scope : Namespace} (h : ∀ entry ∈ scope.entries, P entry.2) :
    Every P scope.get? :=
  fun name m hm => h (name, m) (Entries.mem_of_get?_eq_some hm)

theorem Every.update (h : bound.Every P) (name : String) {found : Option Marked}
    (hfound : ∀ m, found = some m → P m) : Every P (Function.update bound name found) := by
  intro other m hm
  by_cases ho : other = name
  · rw [ho, Function.update_self] at hm
    exact hfound m hm
  · rw [Function.update_of_ne ho] at hm
    exact h other m hm

variable (hcleaned : ∀ m, P m → P m.cleaned)
include hcleaned

theorem Every.save (h : bound.Every P) (name : String) {m : Marked} (hm : P m) :
    (bound.save name m).Every P :=
  h.update name fun _ hm' => Option.some.inj hm' ▸ hcleaned m hm

theorem Every.saveAll (h : bound.Every P) {pairs : Entries Marked}
    (hpairs : ∀ pair ∈ pairs, P pair.2) :
    Every P (pairs.foldl (fun bound pair => Bindings.save bound pair.1 pair.2) bound) := by
  induction pairs generalizing bound with
  | nil => exact h
  | cons pair rest ih =>
    obtain ⟨hpair, hrest⟩ := List.forall_mem_cons.mp hpairs
    exact ih (h.save hcleaned pair.1 hpair) hrest

theorem Every.perform (h : bound.Every P) {edit : Edit} (hedit : ∀ m ∈ edit.values, P m) :
    (bound.perform edit).2.Every P := by
  cases edit with
  | save name m => exact h.save hcleaned name (hedit m List.mem_cons_self)
  | overwrite name m =>
    rw [Bindings.perform]
    split
    · exact h.update name fun _ hm' => Option.some.inj hm' ▸ hedit m List.mem_cons_self
    · exact h
  | remove name => exact h.update name nofun
  | extend pairs =>
    rw [Bindings.perform]
    exact h.saveAll hcleaned (List.forall_mem_map.mp hedit)

/-- What holds of all values that are bound and brought along, and of clean copies of such values,
holds of all values in the end. -/
theorem Every.performAll (h : bound.Every P) {edits : List Edit}
    (hedits : ∀ edit ∈ edits, ∀ m ∈ edit.values, P m) : (bound.performAll edits).2.Every P := by
  induction edits generalizing bound with
  | nil => exact h
  | cons edit rest ih =>
    obtain ⟨hedit, hrest⟩ := List.forall_mem_cons.mp hedits
    exact ih (h.perform hcleaned hedit) hrest

end Bindings

/-! ### Copies -/

namespace Namespace

variable {scope : Namespace} {pairs : Entries Marked}

theorem entries_extend (scope : Namespace) (pairs : Entries Marked) :
    (scope.extend pairs).entries =
      Entries.putAll (pairs.map fun pair => (pair.1, pair.2.cleaned)) scope.entries := by
  induction pairs generalizing scope with
  | nil => rfl
  | cons pair rest ih => exact ih (scope.save pair.1 pair.2)

/-- Storing all variables, in whatever order, binds each name to a clean copy. -/
theorem get?_copy (h : pairs.Perm scope.entries) (name : String) :
    (ofPairs pairs).get? name = (scope.get? name).map Marked.cleaned := by
  have hreverse : pairs.reverse.Perm scope.entries := (List.reverse_perm pairs).trans h
  have hstored : (ofPairs pairs).get? name =
      (Entries.get? name pairs.reverse).map Marked.cleaned := by
    rw [NameMap.get?, ofPairs, entries_extend]
    exact Entries.get?_putAll_map Marked.cleaned pairs name
  rw [hstored, Entries.get?_eq_of_perm hreverse scope.ascending.nodup_names, NameMap.get?]

/-- A copy equals the original exactly if every value equals itself. -/
theorem equal_copy_iff (h : pairs.Perm scope.entries) :
    (ofPairs pairs).equal scope = true ↔
      Bindings.Every (fun m => m.equal m = true) scope.get? := by
  refine NameMap.agreeBy_iff.trans (forall_congr' fun name => ?_)
  rw [get?_copy h]
  cases scope.get? name with
  | none => simp
  | some m => simp [Marked.equal]

/-- If the values carry no marks inside, the copy carries none at all. -/
theorem clean_copy (h : pairs.Perm scope.entries)
    (hinside : Bindings.Every Marked.CleanInside scope.get?) : (ofPairs pairs).Clean := by
  intro name m hm
  rw [get?_copy h, Option.map_eq_some_iff] at hm
  obtain ⟨stored, hstored, rfl⟩ := hm
  exact hinside name stored hstored

/-- The namespace is the finite map of these bindings. -/
structure Represents (scope : Namespace) (bound : Bindings) : Prop where
  get?_eq : ∀ name, scope.get? name = bound name
  contains_eq : ∀ name, scope.contains name = (bound name).isSome
  ascending : scope.names.Pairwise (· < ·)
  mem_names_iff : ∀ name, name ∈ scope.names ↔ (bound name).isSome = true
  size_eq : scope.size = scope.names.length

theorem represents_get? (scope : Namespace) : scope.Represents scope.get? where
  get?_eq _ := rfl
  contains_eq _ := rfl
  ascending := scope.names_pairwise
  mem_names_iff _ := NameMap.mem_names
  size_eq := scope.length_names.symm

end Namespace

/-- **Edits replay.**  After any edits of any namespace, its lookups are those of the bindings on
which the edits are replayed, each edit answers the same, and the names are listed in order.  Two
edited namespaces are equal exactly if every name is bound to equal values in both, or in neither,
whatever edits they come from.  A copy of all variables, in any order, has no marks, none inside
its values either if they never had any there, and equals the original exactly if every value equals
itself. -/
theorem edits_replay (scope : Namespace) (edits : List Edit) :
    (scope.performAll edits).1 = (Bindings.performAll scope.get? edits).1 ∧
    (scope.performAll edits).2.Represents (Bindings.performAll scope.get? edits).2 ∧
    (∀ (other : Namespace) (edits' : List Edit),
      (scope.performAll edits).2.equal (other.performAll edits').2 = true ↔
        ∀ name, Option.Rel (fun m w => m.equal w = true)
          ((Bindings.performAll scope.get? edits).2 name)
          ((Bindings.performAll other.get? edits').2 name)) ∧
    ∀ pairs : Entries Marked, pairs.Perm (scope.performAll edits).2.entries →
      (Namespace.ofPairs pairs).Represents
        (fun name => ((Bindings.performAll scope.get? edits).2 name).map Marked.cleaned) ∧
      Bindings.Every (fun m => m.isClean = true) (Namespace.ofPairs pairs).get? ∧
      (Bindings.Every Marked.CleanInside scope.get? →
        (∀ edit ∈ edits, ∀ m ∈ edit.values, m.CleanInside) → (Namespace.ofPairs pairs).Clean) ∧
      ((Namespace.ofPairs pairs).equal (scope.performAll edits).2 = true ↔
        Bindings.Every (fun m => m.equal m = true) (Bindings.performAll scope.get? edits).2) := by
  rw [scope.get?_performAll edits]
  refine ⟨rfl, Namespace.represents_get? _, fun other edits' => ?_, fun pairs hpairs => ?_⟩
  · rw [other.get?_performAll edits']
    exact NameMap.agreeBy_iff
  · have hcopy := Namespace.get?_copy hpairs
    refine ⟨funext hcopy ▸ Namespace.represents_get? _, fun name m hm => ?_,
      fun hscope hedits => ?_, Namespace.equal_copy_iff hpairs⟩
    · rw [hcopy, Option.map_eq_some_iff] at hm
      obtain ⟨stored, -, rfl⟩ := hm
      exact stored.isClean_cleaned
    · have hinside := hscope.performAll (fun _ hm => hm) hedits
      rw [scope.get?_performAll edits] at hinside
      exact Namespace.clean_copy hpairs hinside

/-- Two variables. -/
def twoVariables : Namespace :=
  .ofPairs [("a", .plain (.int 1)), ("b", .plain (.bool true))]

/-- A mark gets in by overwriting, and another one is stripped; one name is given twice. -/
def someEdits : List Edit :=
  [.overwrite "a" (Marked.plain (.int 2)).asReturn, .overwrite "z" .undefined,
    .extend [("c", .miss), ("c", (Marked.plain (.int 3)).asReturn)], .remove "b"]

/-- The same bindings, filled the other way round. -/
def otherEdits : List Edit :=
  [.save "c" (.plain (.int 3)), .save "a" (.plain (.int 2))]

theorem edits_replay_someEdits :
    (twoVariables.performAll someEdits).1 =
      [some (.plain (.int 1)), none, none, some (.plain (.bool true))] ∧
    (twoVariables.performAll someEdits).2.get? "a" = some (Marked.plain (.int 2)).asReturn ∧
    (twoVariables.performAll someEdits).2.names = ["a", "c"] ∧
    (twoVariables.performAll someEdits).2.equal (Namespace.performAll ∅ otherEdits).2 = true ∧
    ∀ pairs : Entries Marked, pairs.Perm (twoVariables.performAll someEdits).2.entries →
      (Namespace.ofPairs pairs).get? "a" = some (.plain (.int 2)) ∧
      (Namespace.ofPairs pairs).Clean ∧
      (Namespace.ofPairs pairs).equal (twoVariables.performAll someEdits).2 = true := by
  obtain ⟨hanswers, hbound, -, hcopy⟩ := edits_replay twoVariables someEdits
  have hscalar : ∀ {m : Marked}, m.value.parts = [] → m.CleanInside :=
    fun hparts => Marked.everywhere_of_parts_eq_nil hparts rfl
  have hentries : (twoVariables.performAll someEdits).2.entries =
      [("a", (Marked.plain (.int 2)).asReturn), ("c", .plain (.int 3))] := rfl
  refine ⟨hanswers, hbound.get?_eq "a", rfl, by decide, fun pairs hpairs => ?_⟩
  obtain ⟨hlookups, -, hclean, hself⟩ := hcopy pairs hpairs
  refine ⟨hlookups.get?_eq "a", hclean ?_ ?_, hself.mpr ?_⟩
  · have hfirst : twoVariables.entries = [("a", .plain (.int 1)), ("b", .plain (.bool true))] := rfl
    refine Bindings.every_get? ?_
    rw [hfirst]
    exact List.forall_mem_cons.mpr ⟨hscalar rfl, List.forall_mem_singleton.mpr (hscalar rfl)⟩
  · simp only [someEdits, List.forall_mem_cons, Edit.values, List.map_cons, List.map_nil]
    exact ⟨⟨hscalar rfl, nofun⟩, ⟨hscalar rfl, nofun⟩, ⟨hscalar rfl, hscalar rfl, nofun⟩, nofun,
      nofun⟩
  · rw [twoVariables.get?_performAll someEdits]
    refine Bindings.every_get? ?_
    rw [hentries]
    decide

end Arbor
