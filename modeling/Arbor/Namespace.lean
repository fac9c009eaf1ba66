import Arbor.NameMap
import Arbor.Value.Depth

/-!
# Namespaces

The variables of one scope: the locals of a call, or the globals.  Storing goes
through `Namespace.save`, which keeps a clean copy, so control marks stay out of
scopes; only a host that overwrites a slot directly (`Namespace.overwrite?`) can
put them there.

* `Namespace.Everywhere.save` — storing keeps what holds at every depth of every
  variable, if it holds in the stored copy;
* `Namespace.everywhere_ofPairs` — the same for a namespace built by storing.
-/

namespace Arbor

/-- The variables of one scope. -/
abbrev Namespace := NameMap Marked

namespace Namespace

/-- Store a clean copy of `m` under `name`. -/
def save (scope : Namespace) (name : String) (m : Marked) : Namespace :=
  scope.insert name m.cleaned

/-- Store clean copies from left to right. -/
def extend (scope : Namespace) (pairs : Entries Marked) : Namespace :=
  pairs.foldl (fun scope pair => scope.save pair.1 pair.2) scope

/-- The namespace of these variables; of two with one name the later wins. -/
def ofPairs (pairs : Entries Marked) : Namespace :=
  extend ∅ pairs

/-- Overwrite a bound variable with exactly `m`, marks and all. -/
def overwrite? (scope : Namespace) (name : String) (m : Marked) : Option Namespace :=
  if scope.contains name then some (scope.insert name m) else none

/-- The same names with equal values. -/
def equal (scope other : Namespace) : Bool :=
  scope.agreeBy Marked.equal other

/-- `P` holds of every variable and of everything nested in it. -/
def Everywhere (P : Marked → Prop) (scope : Namespace) : Prop :=
  ∀ name m, scope.get? name = some m → m.Everywhere P

/-- No variable carries a mark, and nothing nested in one does. -/
abbrev Clean (scope : Namespace) : Prop :=
  scope.Everywhere fun m => m.isClean = true

variable {P : Marked → Prop} {scope : Namespace}

theorem everywhere_empty : Everywhere P (∅ : Namespace) := by
  intro name m h
  simp at h

theorem Everywhere.insert (h : scope.Everywhere P) {m : Marked} (hm : m.Everywhere P)
    (name : String) : Everywhere P (NameMap.insert scope name m) := by
  intro other m' hm'
  by_cases ho : other = name
  · subst ho
    rw [NameMap.get?_insert_self, Option.some.injEq] at hm'
    exact hm' ▸ hm
  · rw [NameMap.get?_insert_of_ne _ ho] at hm'
    exact h other m' hm'

theorem Everywhere.erase (h : scope.Everywhere P) (name : String) :
    Everywhere P (NameMap.erase scope name) := by
  intro other m hm
  by_cases ho : other = name
  · subst ho
    simp at hm
  · rw [NameMap.get?_erase_of_ne _ ho] at hm
    exact h other m hm

theorem Everywhere.save (h : scope.Everywhere P) {m : Marked} (hm : m.cleaned.Everywhere P)
    (name : String) : Everywhere P (scope.save name m) :=
  h.insert hm name

theorem Everywhere.extend (h : scope.Everywhere P) {pairs : Entries Marked}
    (hpairs : ∀ pair ∈ pairs, pair.2.cleaned.Everywhere P) : Everywhere P (scope.extend pairs) := by
  induction pairs generalizing scope with
  | nil => exact h
  | cons pair rest ih =>
    obtain ⟨hhead, hrest⟩ := List.forall_mem_cons.mp hpairs
    exact ih (h.save hhead pair.1) hrest

theorem everywhere_ofPairs {pairs : Entries Marked}
    (hpairs : ∀ pair ∈ pairs, pair.2.cleaned.Everywhere P) : Everywhere P (ofPairs pairs) :=
  everywhere_empty.extend hpairs

end Namespace

end Arbor
