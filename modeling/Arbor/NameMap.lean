/-!
# Finite maps by name

Scopes, declarations and the fields of record values are all finite maps whose
keys are names.  A map is kept as its list of entries in strictly ascending
order of name, so a map has exactly one representation: equal maps are equal
lists, and listing the names in order is listing the entries.

The operations are first given on plain entry lists (`Entries`), because record
values nest such lists inside an inductive type, and are then bundled with the
ordering proof as `NameMap`.

* `Entries.get?_put_self`, `Entries.get?_put_of_ne` — storing under a name
  changes what is found there and nowhere else;
* `Entries.get?_erase_self`, `Entries.get?_erase_of_ne` — the same for removal;
* `Entries.get?_putAll` — of several pairs with one name, the last is found;
* `Entries.get?_eq_of_perm` — where no name is listed twice, the order does not matter;
* `Ascending.put`, `Ascending.erase` — both operations keep the order;
* `NameMap.ext_get?` — two maps that answer every lookup alike are equal.
-/

namespace Arbor

/-- Named entries, in the order they are listed. -/
abbrev Entries (α : Type) := List (String × α)

namespace Entries

variable {α : Type}

/-- The first entry of that name. -/
def get? (name : String) : Entries α → Option α
  | [] => none
  | (key, a) :: rest => if key = name then some a else get? name rest

/-- Store `a` under `name`, before the first entry with a greater name, replacing an
entry of the same name. -/
def put (name : String) (a : α) : Entries α → Entries α
  | [] => [(name, a)]
  | (key, b) :: rest =>
    if name < key then (name, a) :: (key, b) :: rest
    else if key = name then (name, a) :: rest
    else (key, b) :: put name a rest

/-- Drop every entry of that name. -/
def erase (name : String) (entries : Entries α) : Entries α :=
  entries.filter fun entry => entry.1 ≠ name

/-- The names, in the order of the entries. -/
def names (entries : Entries α) : List String :=
  entries.map Prod.fst

/-- Store the pairs from left to right, so of two pairs with one name the later wins. -/
def putAll (pairs : Entries α) (entries : Entries α) : Entries α :=
  pairs.foldl (fun stored pair => put pair.1 pair.2 stored) entries

/-- Same names in the same places, with related contents. -/
def agreeBy {β : Type} (related : α → β → Bool) : Entries α → Entries β → Bool
  | [], [] => true
  | (key, a) :: rest, (key', b) :: rest' =>
    key == key' && related a b && agreeBy related rest rest'
  | _, _ => false

@[simp] theorem get?_nil (name : String) : get? name ([] : Entries α) = none := rfl

theorem get?_cons (name key : String) (a : α) (rest : Entries α) :
    get? name ((key, a) :: rest) = if key = name then some a else get? name rest := rfl

@[simp] theorem get?_put_self (name : String) (a : α) (entries : Entries α) :
    get? name (put name a entries) = some a := by
  induction entries with
  | nil => simp [put, get?]
  | cons entry rest ih =>
    obtain ⟨key, b⟩ := entry
    by_cases hlt : name < key
    · simp [put, hlt, get?]
    · by_cases heq : key = name
      · simp [put, heq, get?]
      · simp [put, hlt, heq, get?, ih]

theorem get?_put_of_ne {name other : String} (h : other ≠ name) (a : α) (entries : Entries α) :
    get? other (put name a entries) = get? other entries := by
  induction entries with
  | nil => simp [put, get?, h.symm]
  | cons entry rest ih =>
    obtain ⟨key, b⟩ := entry
    by_cases hlt : name < key
    · simp [put, hlt, get?, h.symm]
    · by_cases heq : key = name
      · subst heq
        rw [put, if_neg hlt, if_pos rfl, get?_cons, get?_cons, if_neg h.symm, if_neg h.symm]
      · simp [put, hlt, heq, get?, ih]

@[simp] theorem get?_erase_self (name : String) (entries : Entries α) :
    get? name (erase name entries) = none := by
  induction entries with
  | nil => rfl
  | cons entry rest ih =>
    obtain ⟨key, b⟩ := entry
    by_cases h : key = name
    · simpa [erase, h] using ih
    · simpa [erase, h, get?] using ih

theorem get?_erase_of_ne {name other : String} (h : other ≠ name) (entries : Entries α) :
    get? other (erase name entries) = get? other entries := by
  induction entries with
  | nil => rfl
  | cons entry rest ih =>
    obtain ⟨key, b⟩ := entry
    by_cases hk : key = name
    · subst hk
      simpa [erase, get?, h.symm] using ih
    · rw [show erase name ((key, b) :: rest) = (key, b) :: erase name rest by simp [erase, hk]]
      simp [get?, ih]

/-- A name is found exactly when it is listed. -/
theorem get?_isSome_iff {name : String} {entries : Entries α} :
    (get? name entries).isSome ↔ name ∈ names entries := by
  induction entries with
  | nil => simp [names]
  | cons entry rest ih =>
    obtain ⟨key, b⟩ := entry
    by_cases h : key = name
    · simp [get?, names, h]
    · simpa [get?, names, h, Ne.symm h] using ih

theorem mem_of_get?_eq_some {name : String} {a : α} {entries : Entries α}
    (h : get? name entries = some a) : (name, a) ∈ entries := by
  induction entries with
  | nil => simp at h
  | cons entry rest ih =>
    obtain ⟨key, b⟩ := entry
    by_cases hk : key = name
    · simp only [get?, hk, if_true, Option.some.injEq] at h
      simp [hk, h]
    · simp only [get?, hk, if_false] at h
      exact List.mem_cons_of_mem _ (ih h)

/-- Where no name is listed twice, each entry is the one that is found. -/
theorem get?_eq_some_of_mem {entry : String × α} {entries : Entries α}
    (h : (names entries).Nodup) (hentry : entry ∈ entries) :
    get? entry.1 entries = some entry.2 := by
  induction entries with
  | nil => cases hentry
  | cons head rest ih =>
    obtain ⟨hhead, hrest⟩ := List.nodup_cons.mp h
    rcases List.mem_cons.mp hentry with rfl | hentry
    · simp [get?]
    · have hne : head.1 ≠ entry.1 := by
        intro heq
        exact hhead (heq ▸ List.mem_map_of_mem hentry)
      rw [get?, if_neg hne]
      exact ih hrest hentry

/-- Where no name is listed twice, looking up a name finds its only entry. -/
theorem get?_eq_some_iff_mem {name : String} {a : α} {entries : Entries α}
    (h : (names entries).Nodup) : get? name entries = some a ↔ (name, a) ∈ entries :=
  ⟨mem_of_get?_eq_some, get?_eq_some_of_mem h⟩

/-- Where no name is listed twice, lookups do not depend on the order of the entries. -/
theorem get?_eq_of_perm {entries others : Entries α} (h : entries.Perm others)
    (hothers : (names others).Nodup) (name : String) : get? name entries = get? name others := by
  have hentries : (names entries).Nodup := (h.map Prod.fst).nodup_iff.mpr hothers
  refine Option.ext fun a => ?_
  rw [get?_eq_some_iff_mem hentries, get?_eq_some_iff_mem hothers, h.mem_iff]

theorem mem_put {name : String} {a : α} {entries : Entries α} {entry : String × α}
    (h : entry ∈ put name a entries) : entry = (name, a) ∨ entry ∈ entries := by
  induction entries with
  | nil => simpa [put] using h
  | cons head rest ih =>
    obtain ⟨key, b⟩ := head
    by_cases hlt : name < key
    · simpa [put, hlt] using h
    · by_cases heq : key = name
      · subst heq
        simp only [put, hlt, if_true, if_false, List.mem_cons] at h
        exact h.imp_right fun hr => List.mem_cons_of_mem _ hr
      · simp only [put, hlt, heq, if_false, List.mem_cons] at h
        rcases h with h | h
        · exact .inr (h ▸ List.mem_cons_self)
        · exact (ih h).imp_right (List.mem_cons_of_mem _)

theorem mem_putAll {pairs entries : Entries α} {entry : String × α}
    (h : entry ∈ putAll pairs entries) : entry ∈ pairs ∨ entry ∈ entries := by
  induction pairs generalizing entries with
  | nil => exact .inr h
  | cons pair rest ih =>
    rcases ih h with h | h
    · exact .inl (List.mem_cons_of_mem _ h)
    · rcases mem_put h with rfl | h
      · exact .inl List.mem_cons_self
      · exact .inr h

theorem mem_names_put {name other : String} {a : α} {entries : Entries α} :
    other ∈ names (put name a entries) ↔ other = name ∨ other ∈ names entries := by
  rw [← get?_isSome_iff, ← get?_isSome_iff]
  by_cases h : other = name
  · simp [h]
  · simp [h, get?_put_of_ne h]

theorem mem_names_putAll {name : String} {pairs entries : Entries α} :
    name ∈ names (putAll pairs entries) ↔ name ∈ names pairs ∨ name ∈ names entries := by
  induction pairs generalizing entries with
  | nil => simp [putAll, names]
  | cons pair rest ih =>
    rw [putAll, List.foldl_cons, ← putAll, ih, mem_names_put]
    simp only [names, List.map_cons, List.mem_cons]
    grind

theorem get?_append (name : String) (entries others : Entries α) :
    get? name (entries ++ others) = (get? name entries).or (get? name others) := by
  induction entries with
  | nil => rfl
  | cons entry rest ih =>
    obtain ⟨key, b⟩ := entry
    by_cases h : key = name
    · simp [get?, h]
    · simpa [get?, h] using ih

theorem get?_map {β : Type} (name : String) (change : α → β) (entries : Entries α) :
    get? name (entries.map fun entry => (entry.1, change entry.2)) =
      (get? name entries).map change := by
  induction entries with
  | nil => rfl
  | cons entry rest ih =>
    obtain ⟨key, b⟩ := entry
    by_cases h : key = name
    · simp [get?, h]
    · simpa [get?, h] using ih

/-- The last pair of that name is found, or else what was stored before. -/
theorem get?_putAll (name : String) (pairs entries : Entries α) :
    get? name (putAll pairs entries) = (get? name pairs.reverse).or (get? name entries) := by
  induction pairs generalizing entries with
  | nil => rfl
  | cons pair rest ih =>
    rw [putAll, List.foldl_cons, ← putAll, ih, List.reverse_cons, get?_append, Option.or_assoc]
    congr 1
    by_cases h : pair.1 = name
    · simp [get?, h]
    · simp [get?, h, get?_put_of_ne (Ne.symm h)]

/-- Of several pairs with one name, the last is stored, changed like all of them. -/
theorem get?_putAll_map {β : Type} (change : α → β) (pairs : Entries α) (name : String) :
    get? name (putAll (pairs.map fun pair => (pair.1, change pair.2)) []) =
      (get? name pairs.reverse).map change := by
  rw [get?_putAll, get?_nil, Option.or_none, ← List.map_reverse, get?_map]

end Entries

/-- Strictly ascending by name; in particular no name is listed twice. -/
def Ascending {α : Type} (entries : Entries α) : Prop :=
  entries.Pairwise fun a b => a.1 < b.1

namespace Ascending

variable {α : Type} {entries : Entries α}

theorem nil : Ascending ([] : Entries α) := List.Pairwise.nil

theorem put (h : Ascending entries) (name : String) (a : α) :
    Ascending (Entries.put name a entries) := by
  induction entries with
  | nil => simp [Ascending, Entries.put]
  | cons entry rest ih =>
    obtain ⟨key, b⟩ := entry
    obtain ⟨hhead, hrest⟩ := List.pairwise_cons.mp h
    by_cases hlt : name < key
    · simp only [Entries.put, hlt, if_true]
      refine List.pairwise_cons.mpr ⟨fun e he => ?_, h⟩
      rcases List.mem_cons.mp he with rfl | he
      · exact hlt
      · exact String.lt_trans hlt (hhead e he)
    · by_cases heq : key = name
      · subst heq
        simp only [Entries.put, hlt, if_true, if_false]
        exact List.pairwise_cons.mpr ⟨hhead, hrest⟩
      · simp only [Entries.put, hlt, heq, if_false]
        refine List.pairwise_cons.mpr ⟨fun e he => ?_, ih hrest⟩
        rcases Entries.mem_put he with rfl | he
        · exact (String.le_total key name).elim
            (fun hle => Decidable.byContradiction fun hn =>
              heq (String.le_antisymm hle (String.not_lt.mp hn)))
            (fun hle => absurd (String.le_antisymm (String.not_lt.mp hlt) hle) heq)
        · exact hhead e he

/-- No name is listed twice. -/
theorem nodup_names (h : Ascending entries) : (Entries.names entries).Nodup := by
  apply List.pairwise_map.mpr
  apply List.Pairwise.imp _ h
  intro entry other hlt heq
  exact String.lt_irrefl other.1 (heq ▸ hlt)

theorem erase (h : Ascending entries) (name : String) :
    Ascending (Entries.erase name entries) :=
  List.Pairwise.filter _ h

theorem putAll (h : Ascending entries) (pairs : Entries α) :
    Ascending (Entries.putAll pairs entries) := by
  induction pairs generalizing entries with
  | nil => exact h
  | cons pair rest ih => exact ih (h.put pair.1 pair.2)

/-- In ascending entries the head's name is not found among the rest. -/
theorem get?_tail_eq_none {key : String} {a : α} (h : Ascending ((key, a) :: entries)) :
    Entries.get? key entries = none := by
  refine Option.eq_none_iff_forall_ne_some.mpr fun b hb => ?_
  exact String.lt_irrefl key ((List.pairwise_cons.mp h).1 _ (Entries.mem_of_get?_eq_some hb))

/-- Ascending entries are determined by their lookups. -/
theorem eq_of_get?_eq {others : Entries α} (h : Ascending entries) (ho : Ascending others)
    (same : ∀ name, Entries.get? name entries = Entries.get? name others) : entries = others := by
  induction entries generalizing others with
  | nil =>
    cases others with
    | nil => rfl
    | cons entry rest =>
      obtain ⟨key, b⟩ := entry
      simpa [Entries.get?] using same key
  | cons entry rest ih =>
    obtain ⟨key, a⟩ := entry
    cases others with
    | nil => simpa [Entries.get?] using same key
    | cons entry' rest' =>
      obtain ⟨key', b⟩ := entry'
      obtain ⟨hhead, hrest⟩ := List.pairwise_cons.mp h
      obtain ⟨hhead', hrest'⟩ := List.pairwise_cons.mp ho
      have hkey : key = key' := by
        refine Decidable.byContradiction fun hne => ?_
        have hfound : Entries.get? key rest' = some a := by
          simpa [Entries.get?, Ne.symm hne] using (same key).symm
        have hfound' : Entries.get? key' rest = some b := by
          simpa [Entries.get?, hne] using same key'
        exact String.lt_irrefl key (String.lt_trans
          (hhead _ (Entries.mem_of_get?_eq_some hfound'))
          (hhead' _ (Entries.mem_of_get?_eq_some hfound)))
      subst hkey
      have hval : a = b := by simpa [Entries.get?] using same key
      subst hval
      congr 1
      refine ih hrest hrest' fun name => ?_
      by_cases hname : key = name
      · subst hname
        rw [h.get?_tail_eq_none, ho.get?_tail_eq_none]
      · simpa [Entries.get?, hname] using same name

end Ascending

/-- A finite map from names: its entries in strictly ascending order of name. -/
structure NameMap (α : Type) where
  entries : Entries α
  ascending : Ascending entries

namespace NameMap

variable {α : Type}

/-- The map without entries. -/
def empty : NameMap α := ⟨[], .nil⟩

instance : EmptyCollection (NameMap α) := ⟨empty⟩

instance : Inhabited (NameMap α) := ⟨empty⟩

/-- What is stored under `name`. -/
def get? (map : NameMap α) (name : String) : Option α :=
  map.entries.get? name

/-- Whether anything is stored under `name`. -/
def contains (map : NameMap α) (name : String) : Bool :=
  (map.get? name).isSome

/-- Store `a` under `name`, replacing what was there. -/
def insert (map : NameMap α) (name : String) (a : α) : NameMap α :=
  ⟨map.entries.put name a, map.ascending.put name a⟩

/-- Forget `name`. -/
def erase (map : NameMap α) (name : String) : NameMap α :=
  ⟨map.entries.erase name, map.ascending.erase name⟩

/-- All names, ascending. -/
def names (map : NameMap α) : List String :=
  map.entries.names

/-- The number of names. -/
def size (map : NameMap α) : Nat :=
  map.entries.length

/-- Whether no name is stored. -/
def isEmpty (map : NameMap α) : Bool :=
  map.entries.isEmpty

/-- The same names with related contents. -/
def agreeBy (related : α → α → Bool) (map other : NameMap α) : Bool :=
  map.entries.agreeBy related other.entries

@[simp] theorem get?_empty (name : String) : (∅ : NameMap α).get? name = none := rfl

@[simp] theorem get?_insert_self (map : NameMap α) (name : String) (a : α) :
    (map.insert name a).get? name = some a :=
  Entries.get?_put_self name a map.entries

theorem get?_insert_of_ne (map : NameMap α) {name other : String} (h : other ≠ name) (a : α) :
    (map.insert name a).get? other = map.get? other :=
  Entries.get?_put_of_ne h a map.entries

@[simp] theorem get?_erase_self (map : NameMap α) (name : String) :
    (map.erase name).get? name = none :=
  Entries.get?_erase_self name map.entries

theorem get?_erase_of_ne (map : NameMap α) {name other : String} (h : other ≠ name) :
    (map.erase name).get? other = map.get? other :=
  Entries.get?_erase_of_ne h map.entries

theorem mem_names {map : NameMap α} {name : String} :
    name ∈ map.names ↔ map.contains name = true :=
  Entries.get?_isSome_iff.symm

/-- Names are listed in strictly ascending order. -/
theorem names_pairwise (map : NameMap α) : map.names.Pairwise (· < ·) :=
  List.pairwise_map.mpr map.ascending

@[simp] theorem length_names (map : NameMap α) : map.names.length = map.size := by
  simp [names, size, Entries.names]

/-- Two maps that answer every lookup alike are the same map. -/
theorem ext_get? {map other : NameMap α} (same : ∀ name, map.get? name = other.get? name) :
    map = other := by
  obtain ⟨entries, hentries⟩ := map
  obtain ⟨others, hothers⟩ := other
  obtain rfl := hentries.eq_of_get?_eq hothers same
  rfl

end NameMap

end Arbor
