import Arbor.Proofs.Conflict
import Arbor.Proofs.Default
import Arbor.Proofs.Pointwise
import Arbor.Ty.Text

/-!
# Types are told apart by their texts

The text of a type does not show lengths, bodies and the names of parameters.  None
of these matters for agreement.  Everything else can be read back from the text, as
long as the names of fields are identifiers, so types with the same text agree.

Arrays and functions end with a type and with nothing behind it, so reading back goes
from the front.  The first letters tell the kind of the type.  The name of a field
ends at the first blank, and behind a field or a parameter there is either a comma or
the closing bracket.  So what begins like the text of a type cannot go on where that
text ends.

* `Text.Decides` — two texts that cannot both begin what is read, unless they stand for
  something related and end at the same place;
* `Text.decides_listed` — lists in brackets decide, if their items do;
* `Ty.Legible.decides` — texts of types decide, and what they stand for agrees.
-/

namespace Arbor

/-! ### Reading from the front -/

namespace Text

variable {α : Type} {text text' : List Char} {related related' : Prop}

/-- If both texts begin what is read, then `related` holds, and they end at the same place. -/
def Decides (text text' : List Char) (related : Prop) : Prop :=
  ∀ rest rest', text ++ rest = text' ++ rest' → related ∧ rest = rest'

theorem Decides.imp (h : Decides text text' related) (himp : related → related') :
    Decides text text' related' := by
  intro rest rest' heq
  exact (h rest rest' heq).imp_left himp

theorem decides_self (text : List Char) : Decides text text True := by
  intro rest rest' heq
  exact ⟨trivial, List.append_cancel_left heq⟩

/-- What comes behind is read from the same place on, once the first part is known. -/
theorem Decides.append {more more' : List Char} {post : Prop} (h : Decides text text' related)
    (hmore : related → Decides more more' post) :
    Decides (text ++ more) (text' ++ more') (related ∧ post) := by
  intro rest rest' heq
  rw [List.append_assoc, List.append_assoc] at heq
  obtain ⟨hrelated, heq⟩ := h _ _ heq
  obtain ⟨hpost, heq⟩ := hmore hrelated _ _ heq
  exact ⟨⟨hrelated, hpost⟩, heq⟩

/-- Texts none of which begins with the other. -/
theorem decides_of_not_prefix (h : text <+: text' ∨ text' <+: text → text = text' ∧ related) :
    Decides text text' related := by
  intro rest rest' heq
  have hcomparable := List.prefix_or_prefix_of_prefix (List.prefix_append text rest)
    (heq ▸ List.prefix_append text' rest')
  obtain ⟨rfl, hrelated⟩ := h hcomparable
  exact ⟨hrelated, List.append_cancel_left heq⟩

/-- A name that ends at the first blank. -/
theorem decides_name {name name' : List Char} (h : ' ' ∉ name) (h' : ' ' ∉ name') :
    Decides (name ++ [' ']) (name' ++ [' ']) (name = name') := by
  refine decides_of_not_prefix fun hbegins => ?_
  have hname : ∀ {name name' : List Char}, ' ' ∉ name' → name ++ [' '] <+: name' ++ [' '] →
      name = name' := by
    intro name name' h' hbegins
    rcases List.prefix_concat_iff.mp hbegins with heq | hbegins
    · exact List.append_cancel_right heq
    · exact absurd (hbegins.subset (List.mem_append_right _ List.mem_cons_self)) h'
  have heq : name = name' := hbegins.elim (hname h') fun hbegins => (hname h hbegins).symm
  exact ⟨heq ▸ rfl, heq⟩

/-! ### Lists in brackets -/

/-- Items behind each other, with a comma in front of each. -/
def furtherItems (write : α → List Char) (items : List α) : List Char :=
  items.flatMap fun item => ", ".toList ++ write item

theorem intercalate_map_cons (write : α → List Char) (item : α) (items : List α) :
    ", ".toList.intercalate ((item :: items).map write) =
      write item ++ furtherItems write items := by
  induction items generalizing item with
  | nil => simp [furtherItems]
  | cons next rest ih =>
    rw [List.map_cons, List.map_cons, List.intercalate_cons_cons, ← List.map_cons, ih]
    simp [furtherItems]

variable {write : α → List Char} {related : α → α → Prop} {items items' : List α} (close : Char)

/-- Behind an item there is a comma, or else the bracket. -/
theorem decides_furtherItems (hclose : close ≠ ',')
    (hitems : ∀ item ∈ items, ∀ item' ∈ items',
      Decides (write item) (write item') (related item item')) :
    Decides (furtherItems write items ++ [close]) (furtherItems write items' ++ [close])
      (List.Forall₂ related items items') := by
  induction items generalizing items' with
  | nil =>
    cases items' with
    | nil => exact (decides_self _).imp fun _ => .nil
    | cons item' rest' =>
      intro tail tail' heq
      exact absurd (List.cons.inj heq).1 hclose
  | cons item rest ih =>
    cases items' with
    | nil =>
      intro tail tail' heq
      exact absurd (List.cons.inj heq).1.symm hclose
    | cons item' rest' =>
      obtain ⟨hhead, hrest⟩ := List.forall_mem_cons.mp hitems
      have hseparated := (decides_self ", ".toList).append fun _ => hhead item' List.mem_cons_self
      have hlist := hseparated.append fun _ => ih fun next hnext next' hnext' =>
        hrest next hnext next' (List.mem_cons_of_mem _ hnext')
      simp only [furtherItems, List.flatMap_cons, List.append_assoc] at hlist ⊢
      exact hlist.imp fun h => .cons h.1.2 h.2

/-- A list that ends with a bracket decides, if its items do and none begins with the bracket. -/
theorem decides_listed (hclose : close ≠ ',')
    (hitems : ∀ item ∈ items, ∀ item' ∈ items',
      Decides (write item) (write item') (related item item'))
    (hbegin : ∀ item ∈ items, ∃ c rest, write item = c :: rest ∧ c ≠ close)
    (hbegin' : ∀ item ∈ items', ∃ c rest, write item = c :: rest ∧ c ≠ close) :
    Decides (", ".toList.intercalate (items.map write) ++ [close])
      (", ".toList.intercalate (items'.map write) ++ [close])
      (List.Forall₂ related items items') := by
  cases items with
  | nil =>
    cases items' with
    | nil => exact (decides_self _).imp fun _ => .nil
    | cons item' rest' =>
      intro tail tail' heq
      obtain ⟨c, written, hwrite, hne⟩ := hbegin' item' List.mem_cons_self
      rw [intercalate_map_cons, hwrite] at heq
      exact absurd (List.cons.inj heq).1.symm hne
  | cons item rest =>
    cases items' with
    | nil =>
      intro tail tail' heq
      obtain ⟨c, written, hwrite, hne⟩ := hbegin item List.mem_cons_self
      rw [intercalate_map_cons, hwrite] at heq
      exact absurd (List.cons.inj heq).1 hne
    | cons item' rest' =>
      have hhead := hitems item List.mem_cons_self item' List.mem_cons_self
      have hlist := hhead.append fun _ =>
        decides_furtherItems close hclose fun next hnext next' hnext' =>
          hitems next (List.mem_cons_of_mem _ hnext) next' (List.mem_cons_of_mem _ hnext')
      rw [intercalate_map_cons, intercalate_map_cons, List.append_assoc, List.append_assoc]
      exact hlist.imp fun h => .cons h.1 h.2

end Text

/-! ### Identifiers -/

/-- A letter, a digit or an underscore. Beyond ASCII every character is let through. -/
def Text.isIdentifierPart (c : Char) : Bool :=
  c.isAlphanum || c == '_' || 127 < c.toNat

/-- A name that is not empty and has no blanks, brackets or other marks. -/
def Text.IsIdentifier (name : String) : Prop :=
  name ≠ "" ∧ ∀ c ∈ name.toList, Text.isIdentifierPart c = true

instance (name : String) : Decidable (Text.IsIdentifier name) :=
  @instDecidableAnd _ _ inferInstance (List.decidableBAll _ _)

theorem Text.IsIdentifier.blank_notMem {name : String} (h : Text.IsIdentifier name) :
    ' ' ∉ name.toList := by
  intro hmem
  cases h.2 ' ' hmem

/-- An identifier does not begin with the bracket that closes a record. -/
theorem Text.IsIdentifier.exists_first {name : String} (h : Text.IsIdentifier name) :
    ∃ c rest, name.toList = c :: rest ∧ c ≠ '\x7d' := by
  obtain ⟨hname, hparts⟩ := h
  cases hlist : name.toList with
  | nil => exact absurd (String.toList_inj.mp hlist) hname
  | cons c rest =>
    refine ⟨c, rest, rfl, ?_⟩
    rintro rfl
    cases hparts '\x7d' (hlist ▸ List.mem_cons_self)

/-! ### Types -/

/-- What the text of a type of that kind begins with. -/
def Kind.opening : Kind → List Char
  | .array => "[]".toList
  | .record => "struct\x7b".toList
  | .function => "func(".toList
  | kind => kind.text.toList

/-- The beginning tells the kind. -/
theorem Kind.opening_decides (kind kind' : Kind) :
    Text.Decides kind.opening kind'.opening (kind = kind') := by
  apply Text.decides_of_not_prefix
  cases kind <;> cases kind' <;> decide

namespace Ty

open Text

variable {ty other : Ty}

/-- All fields of the records inside the type are named by identifiers. -/
def Legible (ty : Ty) : Prop :=
  ∀ fields : Entries Ty, Within (.record fields) ty → ∀ name ∈ fields.names, IsIdentifier name

theorem legible_iff_parts : ty.Legible ↔
    (∀ fields : Entries Ty, ty = .record fields → ∀ name ∈ fields.names, IsIdentifier name) ∧
      ∀ part ∈ ty.parts, part.Legible :=
  forall_record_within_iff

theorem legible_of_parts_eq_nil (hkind : ty.kind ≠ .record) (hparts : ty.parts = []) :
    ty.Legible := by
  refine legible_iff_parts.mpr ⟨fun fields heq => ?_, by simp [hparts]⟩
  subst heq
  exact absurd rfl hkind

theorem legible_array_iff {elem : Ty} {length : NodeId} :
    (Ty.array elem length).Legible ↔ elem.Legible := by
  rw [legible_iff_parts, parts, List.forall_mem_singleton]
  exact and_iff_right fun _ heq => Ty.noConfusion heq

theorem legible_record_iff {fields : Entries Ty} :
    (Ty.record fields).Legible ↔ ∀ field ∈ fields, IsIdentifier field.1 ∧ field.2.Legible := by
  rw [legible_iff_parts, parts, List.forall_mem_map]
  constructor
  · intro h field hfield
    exact ⟨h.1 fields rfl field.1 (List.mem_map_of_mem hfield), h.2 field hfield⟩
  · intro h
    refine ⟨fun others heq name hname => ?_, fun field hfield => (h field hfield).2⟩
    obtain rfl := Ty.record.inj heq
    obtain ⟨field, hfield, rfl⟩ := List.mem_map.mp hname
    exact (h field hfield).1

theorem legible_function_iff {params : Entries Ty} {result : Ty} {body : NodeId} :
    (Ty.function params result body).Legible ↔
      (∀ param ∈ params, param.2.Legible) ∧ result.Legible := by
  rw [legible_iff_parts, parts, List.forall_mem_append, List.forall_mem_map,
    List.forall_mem_singleton]
  exact and_iff_right fun _ heq => Ty.noConfusion heq

/-- A field, as it is written in the text of a record. -/
def fieldChars (field : String × Ty) : List Char :=
  field.1.toList ++ [' '] ++ field.2.text.toList

/-- What the text of a type goes on with. -/
def following : Ty → List Char
  | .array elem _ => elem.text.toList
  | .record fields => ", ".toList.intercalate (fields.map fieldChars) ++ ['\x7d']
  | .function params result _ =>
    ", ".toList.intercalate (params.map fun param => param.2.text.toList) ++ [')'] ++
      [' '] ++ result.text.toList
  | _ => []

theorem toList_text (ty : Ty) : ty.text.toList = ty.kind.opening ++ ty.following := by
  cases ty with
  | array elem length =>
    rw [text, String.toList_append]
    rfl
  | record fields =>
    have hfields : (fieldTexts fields).map String.toList = fields.map fieldChars := by
      simp [fieldTexts_eq_map, fieldChars, Function.comp_def]
    simp only [text, following, String.toList_append, String.toList_intercalate, hfields,
      List.append_assoc]
    rfl
  | function params result body =>
    have hparams : (paramTexts params).map String.toList =
        params.map fun param => param.2.text.toList := by
      simp [paramTexts_eq_map, Function.comp_def]
    simp only [text, following, String.toList_append, String.toList_intercalate, hparams,
      List.append_assoc]
    rfl
  | _ => rfl

/-- No type begins with the bracket that closes a list of parameters. -/
theorem exists_text_eq_cons (ty : Ty) : ∃ c rest, ty.text.toList = c :: rest ∧ c ≠ ')' := by
  rw [toList_text]
  cases ty <;> exact ⟨_, _, rfl, by decide⟩

theorem agrees_function_of_forall₂ {params others : Entries Ty} {result result' : Ty}
    {body body' : NodeId}
    (h : List.Forall₂ (fun param other => param.2.agrees other.2 = true) params others)
    (hresult : result.agrees result' = true) :
    (Ty.function params result body).agrees (.function others result' body') = true :=
  agrees_function_iff.mpr ⟨⟨h.length_eq, fun _ hpair => List.forall₂_zip h hpair⟩, hresult⟩

/-- A record that agrees with itself agrees with every record that lists the same names in the same
order, with types that agree. -/
theorem agrees_record_of_forall₂ {fields others : Entries Ty}
    (hself : (Ty.record fields).agrees (.record fields) = true)
    (h : List.Forall₂ (Entries.Paired fun ty other => ty.agrees other = true) fields others) :
    (Ty.record fields).agrees (.record others) = true := by
  have hfirst := (agrees_record_iff.mp hself).1
  refine agrees_record_iff.mpr ⟨fun field hfield => ?_, fun other hother => ?_⟩
  · obtain ⟨found, hfound, hagree⟩ := hfirst field hfield
    obtain ⟨found', hfound', hagree'⟩ := Entries.exists_get?_of_forall₂ h hfound
    exact ⟨found', hfound', agrees_trans hagree hagree'⟩
  · obtain ⟨field, hfield, hpaired⟩ := exists_of_mem_right h hother
    obtain ⟨hname, hagree⟩ := Entries.paired_iff.mp hpaired
    obtain ⟨found, hfound, hagree'⟩ := hfirst field hfield
    exact ⟨found, hname ▸ hfound, agrees_trans (agrees_symm hagree') hagree⟩

/-- A field's name ends at the first blank, and then comes its type. -/
theorem decides_fieldChars {field field' : String × Ty} (h : IsIdentifier field.1)
    (h' : IsIdentifier field'.1) (hty : Decides field.2.text.toList field'.2.text.toList
      (field.2.agrees field'.2 = true)) :
    Decides (fieldChars field) (fieldChars field')
      (Entries.Paired (fun ty other => ty.agrees other = true) field field') := by
  have hname := decides_name h.blank_notMem h'.blank_notMem
  refine (hname.append fun _ => hty).imp fun hboth => ?_
  exact Entries.paired_iff.mpr ⟨String.toList_inj.mp hboth.1, hboth.2⟩

theorem exists_fieldChars_eq_cons {field : String × Ty} (h : IsIdentifier field.1) :
    ∃ c rest, fieldChars field = c :: rest ∧ c ≠ '\x7d' := by
  obtain ⟨c, rest, hname, hne⟩ := h.exists_first
  refine ⟨c, rest ++ [' '] ++ field.2.text.toList, ?_, hne⟩
  rw [fieldChars, hname, List.cons_append, List.cons_append]

/-- The beginning tells the kind, and the rest has to tell everything else. -/
theorem decides_text (h : ty.kind = other.kind →
    Decides ty.following other.following (ty.agrees other = true)) :
    Decides ty.text.toList other.text.toList (ty.agrees other = true) := by
  rw [toList_text, toList_text]
  exact ((Kind.opening_decides ty.kind other.kind).append h).imp And.right

/-- If the texts of two legible types begin what is read, and the first type agrees with itself,
then the two types agree, and their texts end at the same place. -/
theorem Legible.decides (h : ty.Legible) (h' : other.Legible) (hself : ty.agrees ty = true) :
    Decides ty.text.toList other.text.toList (ty.agrees other = true) := by
  induction ty using Ty.induct generalizing other with
  | array elem length ih =>
    refine decides_text fun hkind => ?_
    cases other with
    | array elem' length' => exact ih (legible_array_iff.mp h) (legible_array_iff.mp h') hself
    | _ => cases hkind
  | record fields ih =>
    refine decides_text fun hkind => ?_
    cases other with
    | record fields' =>
      have hfields := legible_record_iff.mp h
      have hfields' := legible_record_iff.mp h'
      obtain ⟨-, hselves⟩ := agrees_self_record_iff.mp hself
      have hitems : ∀ field ∈ fields, ∀ field' ∈ fields',
          Decides (fieldChars field) (fieldChars field')
            (Entries.Paired (fun ty other => ty.agrees other = true) field field') := by
        intro field hfield field' hfield'
        obtain ⟨hname, hty⟩ := hfields field hfield
        obtain ⟨hname', hty'⟩ := hfields' field' hfield'
        exact decides_fieldChars hname hname' (ih field hfield hty hty' (hselves field hfield))
      have hlist := decides_listed '\x7d' (by decide) hitems
        (fun field hfield => exists_fieldChars_eq_cons (hfields field hfield).1)
        (fun field hfield => exists_fieldChars_eq_cons (hfields' field hfield).1)
      exact hlist.imp (agrees_record_of_forall₂ hself)
    | _ => cases hkind
  | function params result body ih ihresult =>
    refine decides_text fun hkind => ?_
    cases other with
    | function params' result' body' =>
      obtain ⟨hparams, hresult⟩ := legible_function_iff.mp h
      obtain ⟨hparams', hresult'⟩ := legible_function_iff.mp h'
      rw [agrees, Bool.and_eq_true, pairwiseAgree_self_iff] at hself
      have hitems : ∀ param ∈ params, ∀ param' ∈ params',
          Decides param.2.text.toList param'.2.text.toList (param.2.agrees param'.2 = true) := by
        intro param hmem param' hmem'
        exact ih param hmem (hparams param hmem) (hparams' param' hmem') (hself.1 param hmem)
      have hlist := decides_listed ')' (by decide) hitems
        (fun param _ => param.2.exists_text_eq_cons) (fun param _ => param.2.exists_text_eq_cons)
      have hall := (hlist.append fun _ => decides_self [' ']).append
        fun _ => ihresult hresult hresult' hself.2
      exact hall.imp fun hboth => agrees_function_of_forall₂ hboth.1.1 hboth.2
    | _ => cases hkind
  -- a type without parts is told by its kind
  | _ =>
    refine decides_text fun hkind => ?_
    cases other <;> first | exact (decides_self []).imp fun _ => rfl | cases hkind

/-- Legible types with one text agree. -/
theorem Legible.agrees_of_text_eq (h : ty.Legible) (h' : other.Legible)
    (hself : ty.agrees ty = true) (htext : ty.text = other.text) : ty.agrees other = true :=
  (h.decides h' hself [] [] (by rw [htext])).1

/-- A name that is not an identifier can look like several fields. -/
example : (Ty.record [("a int, b", .int)]).text = (Ty.record [("a", .int), ("b", .int)]).text := by
  decide

end Ty

end Arbor
