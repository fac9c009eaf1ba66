import Arbor.NameMap
import Mathlib.Data.List.Forall2

/-!
# Entries in parallel

Two lists of entries are in parallel if they hold the same names in the same
places, with contents that are related one by one.  Then every lookup finds related
contents in both, or nothing in either.

For entries in ascending order this holds the other way round as well.  Such lists
are finite maps, and comparing them from left to right is comparing them as maps.

* `Entries.forall₂_putAll` — storing the same names keeps lists in parallel;
* `Entries.get?_rel_of_forall₂` — lookups in parallel lists;
* `Ascending.forall₂_iff_get?_rel` — finite maps in parallel;
* `NameMap.agreeBy_iff` — the comparison of finite maps, by lookups.
-/

namespace Arbor

/-- Relating one by one, through a list in between. -/
theorem forall₂_comp {α β γ : Type} {rel : α → β → Prop} {rel' : β → γ → Prop}
    {through : α → γ → Prop} (hthrough : ∀ a b c, rel a b → rel' b c → through a c)
    {list : List α} {middle : List β} {list' : List γ} (h : List.Forall₂ rel list middle)
    (h' : List.Forall₂ rel' middle list') : List.Forall₂ through list list' := by
  induction h generalizing list' with
  | nil =>
    cases h'
    exact .nil
  | cons hhead _ ih =>
    cases h' with
    | cons hhead' hrest' => exact .cons (hthrough _ _ _ hhead hhead') (ih hrest')

namespace Entries

variable {α : Type} {rel : α → α → Prop} {entries entries' : Entries α} {name : String}

/-- Entries of one name, with related contents. -/
inductive Paired (rel : α → α → Prop) : String × α → String × α → Prop where
  | intro (name : String) {a b : α} (h : rel a b) : Paired rel (name, a) (name, b)

theorem paired_iff {entry entry' : String × α} :
    Paired rel entry entry' ↔ entry.1 = entry'.1 ∧ rel entry.2 entry'.2 := by
  obtain ⟨name, a⟩ := entry
  obtain ⟨name', b⟩ := entry'
  constructor
  · intro h
    cases h with
    | intro name h => exact ⟨rfl, h⟩
  · intro h
    obtain ⟨rfl, h⟩ := h
    exact .intro name h

/-- The same names, and contents that are related one by one. -/
theorem forall₂_paired_iff : List.Forall₂ (Paired rel) entries entries' ↔
    names entries = names entries' ∧
      List.Forall₂ rel (entries.map (·.2)) (entries'.map (·.2)) := by
  induction entries generalizing entries' with
  | nil => cases entries' <;> simp [names]
  | cons entry rest ih =>
    cases entries' with
    | nil => simp [names]
    | cons entry' rest' =>
      simp only [names, List.map_cons, List.cons.injEq, List.forall₂_cons] at ih ⊢
      rw [ih, paired_iff]
      exact and_and_and_comm

/-- Storing related contents under one name. -/
theorem forall₂_put (h : List.Forall₂ (Paired rel) entries entries') (name : String) {a b : α}
    (hab : rel a b) : List.Forall₂ (Paired rel) (put name a entries) (put name b entries') := by
  induction h with
  | nil => exact .cons (.intro name hab) .nil
  | @cons entry entry' rest rest' hentry hrest ih =>
    obtain ⟨key, hkept⟩ := hentry
    rw [put, put]
    split
    · exact .cons (.intro name hab) (.cons (.intro key hkept) hrest)
    · split
      · exact .cons (.intro name hab) hrest
      · exact .cons (.intro key hkept) ih

theorem forall₂_putAll {pairs pairs' : Entries α} (hpairs : List.Forall₂ (Paired rel) pairs pairs')
    (h : List.Forall₂ (Paired rel) entries entries') :
    List.Forall₂ (Paired rel) (putAll pairs entries) (putAll pairs' entries') := by
  induction hpairs generalizing entries entries' with
  | nil => exact h
  | cons hpair _ ih =>
    obtain ⟨name, hab⟩ := hpair
    exact ih (forall₂_put h name hab)

/-- What a name finds in both lists is related. -/
theorem get?_rel_of_forall₂ (h : List.Forall₂ (Paired rel) entries entries') (name : String) :
    Option.Rel rel (get? name entries) (get? name entries') := by
  induction h with
  | nil => exact .none
  | cons hentry _ ih =>
    obtain ⟨key, hab⟩ := hentry
    by_cases hkey : key = name
    · rw [get?_cons, get?_cons, if_pos hkey, if_pos hkey]
      exact .some hab
    · rw [get?_cons, get?_cons, if_neg hkey, if_neg hkey]
      exact ih

theorem exists_get?_of_forall₂ (h : List.Forall₂ (Paired rel) entries entries') {a : α}
    (ha : get? name entries = some a) : ∃ b, get? name entries' = some b ∧ rel a b := by
  have hfound := get?_rel_of_forall₂ h name
  rw [ha] at hfound
  cases hget : get? name entries' with
  | none =>
    rw [hget] at hfound
    cases hfound
  | some b =>
    rw [hget] at hfound
    cases hfound with
    | some hab => exact ⟨b, rfl, hab⟩

theorem agreeBy_iff_forall₂ {related : α → α → Bool} : agreeBy related entries entries' = true ↔
    List.Forall₂ (Paired fun a b => related a b = true) entries entries' := by
  induction entries generalizing entries' with
  | nil => cases entries' <;> simp [agreeBy]
  | cons entry rest ih =>
    obtain ⟨name, a⟩ := entry
    cases entries' with
    | nil => simp [agreeBy]
    | cons entry' rest' =>
      obtain ⟨name', b⟩ := entry'
      simp [agreeBy, ih, paired_iff]

end Entries

open Entries in
/-- Finite maps are in parallel if every name finds related contents in both, or nothing. -/
theorem Ascending.forall₂_iff_get?_rel {α : Type} {rel : α → α → Prop}
    {entries entries' : Entries α} (h : Ascending entries) (h' : Ascending entries') :
    List.Forall₂ (Paired rel) entries entries' ↔
      ∀ name, Option.Rel rel (get? name entries) (get? name entries') := by
  refine ⟨get?_rel_of_forall₂, fun hrel => ?_⟩
  -- the names alone are finite maps that answer every lookup alike
  have hforget : ∀ {entries : Entries α}, Ascending entries →
      Ascending (entries.map fun entry => (entry.1, ())) :=
    fun h => List.pairwise_map.mpr h
  have hfound : ∀ {found found' : Option α}, Option.Rel rel found found' →
      found.map (fun _ => ()) = found'.map fun _ => () := by
    intro found found' hrel
    cases hrel <;> rfl
  have hsame := (hforget h).eq_of_get?_eq (hforget h') fun name => by
    rw [get?_map name fun _ => (), get?_map name fun _ => ()]
    exact hfound (hrel name)
  have hnames : List.Forall₂ (fun entry entry' => entry.1 = entry'.1) entries entries' := by
    have heq := congrArg (List.map Prod.fst) hsame
    simp only [List.map_map, Function.comp_def] at heq
    rwa [← List.forall₂_eq_eq_eq, List.forall₂_map_left_iff, List.forall₂_map_right_iff] at heq
  refine List.forall₂_iff_zip.mpr ⟨hnames.length_eq, fun {entry entry'} hpair => ?_⟩
  have hname : entry.1 = entry'.1 := List.forall₂_zip hnames hpair
  obtain ⟨hentry, hentry'⟩ := List.of_mem_zip hpair
  have hfound := hrel entry.1
  rw [get?_eq_some_of_mem h.nodup_names hentry, hname,
    get?_eq_some_of_mem h'.nodup_names hentry'] at hfound
  cases hfound with
  | some hab => exact paired_iff.mpr ⟨hname, hab⟩

/-- Comparing two finite maps entry by entry is comparing all lookups. -/
theorem NameMap.agreeBy_iff {α : Type} {related : α → α → Bool} {map other : NameMap α} :
    map.agreeBy related other = true ↔
      ∀ name, Option.Rel (fun a b => related a b = true) (map.get? name) (other.get? name) :=
  Entries.agreeBy_iff_forall₂.trans (map.ascending.forall₂_iff_get?_rel other.ascending)

end Arbor
