import Arbor.Proofs.Accepted
import Arbor.Proofs.Functionless
import Mathlib.Algebra.Ring.Nat
import Mathlib.Data.List.Forall2

/-!
# Two checks side by side

Checking only appends to the recorded mismatches, and no rule looks at those that
were recorded before.  One relation between two ways to check says this, and what
happens when part of a tree is replaced by something mistaken.

`Echoes lacking echo n rel checking checking'` follows `checking` as long as it
records nothing.  So far `checking'` yields something related, and appends `echo`
exactly `n` times.  With an empty `echo` the two append the same throughout.  They
may lack fuel only if `lacking` allows it.

Nothing is reported twice because of `unknown`: where an echo was recorded below a
node, its type may have become unknown, and every rule accepts an unknown type in
silence.

* `Checking.Echoes.bind`, `Checking.Echoes.forM` — echoes add up;
* `Typing.rule_echoes` — a rule echoes what the nodes below echo;
* `check_echoes_region` — checking two programs that read alike;
* `check_echoes_self`, `check_append` — checking is insensitive to more fuel and to
  what was recorded before; where references end, so does checking.
-/

namespace Arbor

/-- The same type, or unknown where there is an echo. -/
def Ty.Blurred (echo : Array (Located Mismatch)) (ty ty' : Ty) : Prop :=
  ty' = ty ∨ (echo ≠ #[] ∧ ty' = .unknown)

theorem Ty.Blurred.refl (echo : Array (Located Mismatch)) (ty : Ty) : Blurred echo ty ty :=
  .inl rfl

/-- Mismatches recorded `n` times over. -/
def repeated (echo : Array (Located Mismatch)) : Nat → Array (Located Mismatch)
  | 0 => #[]
  | n + 1 => echo ++ repeated echo n

theorem repeated_empty (n : Nat) : repeated #[] n = #[] := by
  induction n with
  | zero => rfl
  | succ n ih => rw [repeated, ih, Array.append_empty]

theorem repeated_add (echo : Array (Located Mismatch)) (n n' : Nat) :
    repeated echo (n + n') = repeated echo n ++ repeated echo n' := by
  induction n with
  | zero => rw [Nat.zero_add, repeated, Array.empty_append]
  | succ n ih => rw [Nat.succ_add, repeated, ih, repeated, Array.append_assoc]

/-- Of two lists that follow each other one is empty. -/
theorem repeated_append {echo added : Array (Located Mismatch)} (h : echo = #[] ∨ added = #[])
    (n : Nat) (rest : Array (Located Mismatch)) :
    repeated echo n ++ (added ++ rest) = added ++ (repeated echo n ++ rest) := by
  rcases h with rfl | rfl
  · rw [repeated_empty, Array.empty_append, Array.empty_append]
  · rw [Array.empty_append, Array.empty_append]

theorem size_repeated (echo : Array (Located Mismatch)) (n : Nat) :
    (repeated echo n).size = n * echo.size := by
  induction n with
  | zero => rw [repeated, Nat.zero_mul, Array.size_empty]
  | succ n ih => rw [repeated, Array.size_append, ih, Nat.succ_mul, Nat.add_comm]

namespace Checking

variable {α β γ : Type} {lacking : Prop} {echo : Array (Located Mismatch)} {n n' : Nat}

/-- While `checking` records nothing, `checking'` yields something related and records `echo`
`n` times; if `echo` is empty, the two record the same. -/
def Echoes (lacking : Prop) (echo : Array (Located Mismatch)) (n : Nat) (rel : α → α → Prop)
    (checking checking' : Checking α) : Prop :=
  ∀ mismatches, (lacking ∧ checking mismatches = none) ∨
    ∃ a added, checking mismatches = some (a, mismatches ++ added) ∧
      (echo = #[] ∨ added = #[] → ∀ mismatches', ∃ a', rel a a' ∧
        checking' mismatches' = some (a', mismatches' ++ (added ++ repeated echo n)))

theorem Echoes.recount {rel : α → α → Prop} {checking checking' : Checking α}
    (h : Echoes lacking echo n rel checking checking') (hn : n = n') :
    Echoes lacking echo n' rel checking checking' :=
  hn ▸ h

/-- Nothing below, so nothing is echoed. -/
theorem echoes_of_added {rel : α → α → Prop} {checking checking' : Checking α} {a a' : α}
    {added : Array (Located Mismatch)} (ha : rel a a')
    (h : ∀ mismatches, checking mismatches = some (a, mismatches ++ added))
    (h' : echo = #[] ∨ added = #[] →
      ∀ mismatches, checking' mismatches = some (a', mismatches ++ added)) :
    Echoes lacking echo 0 rel checking checking' := by
  intro mismatches
  refine .inr ⟨a, added, h mismatches, fun hquiet mismatches' => ⟨a', ha, ?_⟩⟩
  rw [repeated, Array.append_empty]
  exact h' hquiet mismatches'

theorem pure_apply (a : α) (mismatches : Array (Located Mismatch)) :
    (pure a : Checking α) mismatches = some (a, mismatches ++ #[]) := by
  rw [Array.append_empty]
  rfl

theorem report_apply (mismatch : Mismatch) (node : NodeId)
    (mismatches : Array (Located Mismatch)) :
    Typing.report mismatch node mismatches = some ((), mismatches ++ #[⟨mismatch, node⟩]) := by
  rw [← Array.push_eq_append]
  rfl

theorem echoes_pure {rel : α → α → Prop} {a a' : α} (h : rel a a') :
    Echoes lacking echo 0 rel (pure a) (pure a') :=
  echoes_of_added h (pure_apply a) fun _ => pure_apply a'

theorem echoes_report (mismatch : Mismatch) (node : NodeId) :
    Echoes lacking echo 0 (fun _ _ => True) (Typing.report mismatch node)
      (Typing.report mismatch node) :=
  echoes_of_added trivial (report_apply mismatch node) fun _ => report_apply mismatch node

theorem reject_apply (mismatch : Mismatch) (node : NodeId)
    (mismatches : Array (Located Mismatch)) :
    Typing.reject mismatch node mismatches =
      some (.unknown, mismatches ++ #[⟨mismatch, node⟩]) := by
  rw [← Array.push_eq_append]
  rfl

/-- Where there is an echo, nothing is asked of the other check but to be silent. -/
theorem Echoes.silent {rel rel' : α → α → Prop} {checking checking' : Checking α} {a' : α}
    (h : Echoes lacking echo n rel checking checking') (hecho : echo ≠ #[])
    (ha : ∀ a, rel' a a') : Echoes lacking echo 0 rel' checking (pure a') := by
  intro mismatches
  refine (h mismatches).imp_right ?_
  intro hended
  obtain ⟨a, added, hchecking, -⟩ := hended
  refine ⟨a, added, hchecking, fun hquiet mismatches' => ⟨a', ha a, ?_⟩⟩
  rw [hquiet.resolve_left hecho]
  exact pure_apply a' mismatches'

/-- A computation beside the recorded mismatches. -/
theorem echoes_lift {computed computed' : Option α} (hends : lacking ∨ computed.isSome)
    (h : ∀ a, computed = some a → computed' = some a) :
    Echoes lacking echo 0 Eq (liftM computed : Checking α) (liftM computed') := by
  cases hcomputed : computed with
  | none =>
    rw [hcomputed] at hends
    exact fun _ => .inl ⟨hends.resolve_right nofun, rfl⟩
  | some a =>
    rw [h a hcomputed]
    exact echoes_pure rfl

/-- Echoes add up. -/
theorem Echoes.bind {rel : α → α → Prop} {rel' : β → β → Prop} {checking checking' : Checking α}
    {next next' : α → Checking β} (h : Echoes lacking echo n rel checking checking')
    (hrefl : ∀ a, rel a a)
    (hnext : ∀ a a', rel a a' → Echoes lacking echo n' rel' (next a) (next' a')) :
    Echoes lacking echo (n + n') rel' (checking >>= next) (checking' >>= next') := by
  intro mismatches
  rcases h mismatches with ⟨hlacking, hnone⟩ | ⟨a, added, hfirst, hecho⟩
  · exact .inl ⟨hlacking, by rw [bind_apply, hnone, Option.bind_none]⟩
  · rw [bind_apply, hfirst, Option.bind_some]
    rcases hnext a a (hrefl a) (mismatches ++ added) with ⟨hlacking, hnone⟩ |
      ⟨b, more, hsecond, -⟩
    · exact .inl ⟨hlacking, hnone⟩
    · refine .inr ⟨b, added ++ more, by rw [hsecond, Array.append_assoc], ?_⟩
      intro hquiet mismatches'
      have hadded : echo = #[] ∨ added = #[] :=
        hquiet.imp_right fun h => (Array.append_eq_empty_iff.mp h).1
      have hmore : echo = #[] ∨ more = #[] :=
        hquiet.imp_right fun h => (Array.append_eq_empty_iff.mp h).2
      obtain ⟨a', ha, hfirst'⟩ := hecho hadded mismatches'
      -- the outcome of `next a` is the same, whichever `a'` it is compared with
      rcases hnext a a' ha (mismatches ++ added) with ⟨-, hnone⟩ | ⟨_, _, hsecond', hecho'⟩
      · rw [hsecond] at hnone
        cases hnone
      · rw [hsecond, Option.some.injEq, Prod.mk.injEq, Array.append_right_inj] at hsecond'
        obtain ⟨rfl, rfl⟩ := hsecond'
        obtain ⟨b', hb, hlast⟩ := hecho' hmore (mismatches' ++ (added ++ repeated echo n))
        refine ⟨b', hb, ?_⟩
        rw [bind_apply, hfirst', Option.bind_some, hlast, repeated_add]
        simp only [Array.append_assoc, repeated_append hmore]

theorem Echoes.bind_pure {rel : α → α → Prop} {rel' : β → β → Prop}
    {checking checking' : Checking α} {change change' : α → β}
    (h : Echoes lacking echo n rel checking checking') (hrefl : ∀ a, rel a a)
    (hchange : ∀ a a', rel a a' → rel' (change a) (change' a')) :
    Echoes lacking echo n rel' (checking >>= fun a => pure (change a))
      (checking' >>= fun a => pure (change' a)) :=
  h.bind hrefl fun a a' ha => echoes_pure (hchange a a' ha)

/-- What is checked one after the other echoes one after the other. -/
theorem Echoes.forM {list : List γ} {check check' : γ → Checking Unit} {count : γ → Nat}
    (h : ∀ c ∈ list, Echoes lacking echo (count c) (fun _ _ => True) (check c) (check' c)) :
    Echoes lacking echo (list.map count).sum (fun _ _ => True) (list.forM check)
      (list.forM check') := by
  induction list with
  | nil => exact echoes_pure trivial
  | cons c rest ih =>
    obtain ⟨hhead, hrest⟩ := List.forall_mem_cons.mp h
    exact hhead.bind (fun _ => trivial) fun _ _ _ => ih hrest

theorem Echoes.mapM {list : List γ} {check check' : γ → Checking α} {count : γ → Nat}
    {rel : α → α → Prop} (hrefl : ∀ a, rel a a)
    (h : ∀ c ∈ list, Echoes lacking echo (count c) rel (check c) (check' c)) :
    Echoes lacking echo (list.map count).sum (List.Forall₂ rel) (list.mapM check)
      (list.mapM check') := by
  induction list with
  | nil => exact echoes_pure .nil
  | cons c rest ih =>
    obtain ⟨hhead, hrest⟩ := List.forall_mem_cons.mp h
    rw [List.mapM_cons, List.mapM_cons]
    refine hhead.bind hrefl fun a a' ha => ?_
    refine (ih hrest).bind_pure (fun as => List.forall₂_same.mpr fun a _ => hrefl a) ?_
    exact fun as as' has => .cons ha has

/-- An unknown type is accepted in silence, whatever is asked for. -/
theorem echoes_expect {ty ty' : Ty} (h : ty.Blurred echo ty') (asked : Ty)
    (mismatch : Ty → Mismatch) (node : NodeId) :
    Echoes lacking echo 0 (fun _ _ => True) (Typing.expect ty asked (mismatch ty) node)
      (Typing.expect ty' asked (mismatch ty') node) := by
  have hself : Echoes lacking echo 0 (fun _ _ => True)
      (Typing.expect ty asked (mismatch ty) node) (Typing.expect ty asked (mismatch ty) node) := by
    unfold Typing.expect
    split
    · exact echoes_pure trivial
    · exact echoes_report _ node
  rcases h with rfl | ⟨hecho, rfl⟩
  · exact hself
  · exact hself.silent hecho fun _ => trivial

theorem echoes_reject (mismatch : Mismatch) (node : NodeId) :
    Echoes lacking echo 0 (Ty.Blurred echo) (Typing.reject mismatch node)
      (Typing.reject mismatch node) :=
  echoes_of_added (.refl echo _) (reject_apply mismatch node) fun _ => reject_apply mismatch node

theorem echoes_settle (id : NodeId) {verdict verdict' : Except Mismatch Ty}
    (h : verdict' = verdict ∨ (echo ≠ #[] ∧ verdict' = .ok .unknown)) :
    Echoes lacking echo 0 (Ty.Blurred echo) (Typing.settle id verdict)
      (Typing.settle id verdict') := by
  have hself : Echoes lacking echo 0 (Ty.Blurred echo) (Typing.settle id verdict)
      (Typing.settle id verdict) := by
    cases verdict with
    | ok ty => exact echoes_pure (.refl echo ty)
    | error mismatch => exact echoes_reject mismatch id
  rcases h with rfl | ⟨hecho, rfl⟩
  · exact hself
  · exact hself.silent hecho fun _ => .inr ⟨hecho, rfl⟩

theorem unlessReported_apply (ty : Ty) (checking : Checking Unit)
    (mismatches : Array (Located Mismatch)) :
    Typing.unlessReported ty checking mismatches = (checking mismatches).map fun reached =>
      (if reached.2.size = mismatches.size then ty else .unknown, reached.2) := by
  have hget : ∀ mismatches, (get : Checking _) mismatches = some (mismatches, mismatches) :=
    fun _ => rfl
  unfold Typing.unlessReported
  simp only [bind_apply, hget, Option.bind_some]
  cases checking mismatches <;> rfl

/-- A literal below which there was an echo has an unknown type. -/
theorem Echoes.unlessReported {checking checking' : Checking Unit}
    (h : Echoes lacking echo n (fun _ _ => True) checking checking') (ty : Ty) :
    Echoes lacking echo n (Ty.Blurred echo) (Typing.unlessReported ty checking)
      (Typing.unlessReported ty checking') := by
  intro mismatches
  rcases h mismatches with ⟨hlacking, hnone⟩ | ⟨a, added, hchecking, hecho⟩
  · exact .inl ⟨hlacking, by rw [unlessReported_apply, hnone, Option.map_none]⟩
  · refine .inr ⟨_, added, by rw [unlessReported_apply, hchecking, Option.map_some],
      fun hquiet mismatches' => ?_⟩
    obtain ⟨_, -, hchecking'⟩ := hecho hquiet mismatches'
    refine ⟨_, ?_, by rw [unlessReported_apply, hchecking', Option.map_some]⟩
    simp only [Array.size_append, Nat.add_eq_left]
    rcases hquiet with rfl | rfl
    · rw [repeated_empty, Array.size_empty, Nat.add_zero]
      exact .inl rfl
    · rw [Array.size_empty, Nat.zero_add, if_pos rfl]
      split
      · exact .inl rfl
      · next hrecorded =>
        refine .inr ⟨fun hecho => hrecorded ?_, rfl⟩
        rw [hecho, repeated_empty, Array.size_empty]

end Checking

/-! ### The rules -/

namespace Typing

open Checking

section Verdicts

variable {echo : Array (Located Mismatch)}

/-- What a verdict says of an unknown type. -/
theorem verdict_blurred (verdict : Ty → Except Mismatch Ty) (h : verdict .unknown = .ok .unknown)
    {ty ty' : Ty} (hty : ty.Blurred echo ty') :
    verdict ty' = verdict ty ∨ (echo ≠ #[] ∧ verdict ty' = .ok .unknown) := by
  rcases hty with rfl | ⟨hecho, rfl⟩
  · exact .inl rfl
  · exact .inr ⟨hecho, h⟩

theorem returnType_unknown (result : Option Ty) : returnType result .unknown = .ok .unknown := by
  cases result <;> rfl

/-- A verdict on two types that is silent if one of them is unknown. -/
theorem verdict_blurred_two (verdict : Ty → Ty → Except Mismatch Ty)
    (hleft : ∀ ty, verdict .unknown ty = .ok .unknown)
    (hright : ∀ ty, verdict ty .unknown = .ok .unknown) {left left' right right' : Ty}
    (hl : left.Blurred echo left') (hr : right.Blurred echo right') :
    verdict left' right' = verdict left right ∨
      (echo ≠ #[] ∧ verdict left' right' = .ok .unknown) := by
  rcases hl with rfl | ⟨hecho, rfl⟩
  · exact verdict_blurred (verdict left') (hright left') hr
  · exact .inr ⟨hecho, hleft right'⟩

theorem assignmentType_unknown_right (ty : Ty) : assignmentType ty .unknown = .ok .unknown := by
  unfold assignmentType
  rw [if_pos (by simp [Ty.isUnknown])]

theorem binaryType_unknown_right (op : Operator) (ty : Ty) :
    binaryType op ty .unknown = .ok .unknown := by
  unfold binaryType
  rw [if_pos (by simp [Ty.isUnknown])]

end Verdicts

variable {program other : Program} {result : Option Ty} {lengthOf lengthOf' : NodeId → Sizing Nat}
  {check check' : Checker} {lacking : Prop} {echo : Array (Located Mismatch)}
  {count : NodeId → Nat}

/-- A check of one node, echoed by another check of it. -/
abbrev EchoedAt (lacking : Prop) (echo : Array (Located Mismatch)) (count : NodeId → Nat)
    (check check' : Checker) (id : NodeId) : Prop :=
  Echoes lacking echo (count id) (Ty.Blurred echo) (check id) (check' id)

theorem discard_echoes {id : NodeId} (h : EchoedAt lacking echo count check check' id) :
    Echoes lacking echo (count id) (fun _ _ => True) (discard (check id) : Checking Unit)
      (discard (check' id)) :=
  h.bind_pure (.refl echo) fun _ _ _ => trivial

theorem optionally_echoes {statement : Option NodeId}
    (h : ∀ child ∈ statement, EchoedAt lacking echo count check check' child) :
    Echoes lacking echo (statement.toList.map count).sum (fun _ _ => True)
      (optionally check statement) (optionally check' statement) := by
  cases statement with
  | none => exact echoes_pure trivial
  | some statement => exact discard_echoes (h statement rfl)

/-- A node that is compared with the type asked for. -/
theorem expect_echoes {id : NodeId} (h : EchoedAt lacking echo count check check' id) (asked : Ty)
    (mismatch : Ty → Mismatch) (node : NodeId) :
    Echoes lacking echo (count id) (fun _ _ => True)
      (check id >>= fun ty => expect ty asked (mismatch ty) node)
      (check' id >>= fun ty => expect ty asked (mismatch ty) node) :=
  h.bind (.refl echo) fun _ _ hty => echoes_expect hty asked mismatch node

theorem compareLength_echoes (id length : NodeId) (given : Nat)
    (outcome : Except DefaultFault Nat) :
    Echoes lacking echo 0 (fun _ _ => True) (compareLength id length given outcome)
      (compareLength id length given outcome) := by
  unfold compareLength
  split
  · split
    · exact echoes_pure trivial
    · exact echoes_report _ id
  · exact echoes_report _ length

theorem initializes_echoes (id : NodeId) (fields : Entries Ty) (init : FieldInit) {ty ty' : Ty}
    (h : ty.Blurred echo ty') :
    Echoes lacking echo 0 (fun _ _ => True) (initializes id fields init ty)
      (initializes id fields init ty') := by
  unfold initializes
  split
  · exact echoes_report _ id
  · next field _ => exact echoes_expect h field (.initializer · field) init.value

theorem arrayLiteral_echoes {id : NodeId} {elem : Ty} {length : NodeId} {elements : List NodeId}
    (hends : lacking ∨ (lengthOf length).run.isSome)
    (hlength : Sizing.Below (lengthOf length) (lengthOf' length))
    (h : ∀ element ∈ elements, EchoedAt lacking echo count check check' element) :
    Echoes lacking echo (elements.map count).sum (Ty.Blurred echo)
      (arrayLiteral check lengthOf id elem length elements)
      (arrayLiteral check' lengthOf' id elem length elements) := by
  have helements := Echoes.forM fun element helement =>
    expect_echoes (h element helement) elem (.element · elem) element
  have hsized : Echoes lacking echo (0 + 0) (fun _ _ => True)
      ((liftM (lengthOf length).run : Checking _) >>= compareLength id length elements.length)
      ((liftM (lengthOf' length).run : Checking _) >>=
        compareLength id length elements.length) := by
    refine (echoes_lift hends hlength).bind (fun _ => rfl) fun outcome outcome' heq => ?_
    subst heq
    exact compareLength_echoes id length elements.length outcome
  exact (helements.bind (fun _ => trivial) fun _ _ _ => hsized).unlessReported _

theorem recordLiteral_echoes {id : NodeId} {fields : Entries Ty} {inits : List FieldInit}
    (h : ∀ init ∈ inits, EchoedAt lacking echo count check check' init.value) :
    Echoes lacking echo ((inits.map (·.value)).map count).sum (Ty.Blurred echo)
      (recordLiteral check id fields inits) (recordLiteral check' id fields inits) := by
  have hinits := Echoes.forM fun init hinit =>
    (h init hinit).bind (.refl echo) fun _ _ hty => initializes_echoes id fields init hty
  rw [List.map_map]
  exact hinits.unlessReported _

theorem block_echoes {body : List NodeId}
    (h : ∀ statement ∈ body, EchoedAt lacking echo count check check' statement) :
    Echoes lacking echo (body.map count).sum (Ty.Blurred echo)
      (do
        body.forM fun statement => discard (check statement)
        pure .undefined)
      (do
        body.forM fun statement => discard (check' statement)
        pure .undefined) :=
  (Echoes.forM fun statement hstatement => discard_echoes (h statement hstatement)).bind_pure
    (fun _ => trivial) fun _ _ _ => .refl echo .undefined

theorem conditional_echoes {init : Option NodeId} {test thenBranch : NodeId}
    {elseBranch : Option NodeId}
    (hinit : ∀ child ∈ init, EchoedAt lacking echo count check check' child)
    (htest : EchoedAt lacking echo count check check' test)
    (hthen : EchoedAt lacking echo count check check' thenBranch)
    (helse : ∀ child ∈ elseBranch, EchoedAt lacking echo count check check' child) :
    Echoes lacking echo ((init.toList ++ [test, thenBranch] ++ elseBranch.toList).map count).sum
      (Ty.Blurred echo) (conditional check init test thenBranch elseBranch)
      (conditional check' init test thenBranch elseBranch) := by
  have h : Echoes lacking echo ((init.toList.map count).sum + (count test + (0 +
      (count thenBranch + (elseBranch.toList.map count).sum)))) (Ty.Blurred echo)
      (conditional check init test thenBranch elseBranch)
      (conditional check' init test thenBranch elseBranch) :=
    (optionally_echoes hinit).bind (fun _ => trivial) fun _ _ _ =>
      htest.bind (.refl echo) fun _ _ hty =>
      (echoes_expect hty .bool .testNotBool test).bind (fun _ => trivial) fun _ _ _ =>
      (discard_echoes hthen).bind (fun _ => trivial) fun _ _ _ =>
      (optionally_echoes helse).bind_pure (fun _ => trivial) fun _ _ _ => .refl echo .undefined
  apply h.recount
  simp only [List.map_append, List.sum_append, List.map_cons, List.map_nil, List.sum_cons,
    List.sum_nil]
  omega

theorem assignment_echoes {id target value : NodeId}
    (htarget : EchoedAt lacking echo count check check' target)
    (hvalue : EchoedAt lacking echo count check check' value) :
    Echoes lacking echo (([target, value].map count).sum) (Ty.Blurred echo)
      (assignment check id target value) (assignment check' id target value) := by
  have h : Echoes lacking echo (count value + (count target + 0)) (Ty.Blurred echo)
      (assignment check id target value) (assignment check' id target value) :=
    hvalue.bind (.refl echo) fun _ _ hv => htarget.bind (.refl echo) fun _ _ ht =>
      echoes_settle id (verdict_blurred_two assignmentType (fun _ => rfl)
        assignmentType_unknown_right hv ht)
  exact h.recount (Nat.add_left_comm ..)

theorem binary_echoes {id left right : NodeId} {op : Operator}
    (hleft : EchoedAt lacking echo count check check' left)
    (hright : EchoedAt lacking echo count check check' right) :
    Echoes lacking echo (([left, right].map count).sum) (Ty.Blurred echo)
      (binary check id op left right) (binary check' id op left right) :=
  hleft.bind (.refl echo) fun _ _ hl => hright.bind (.refl echo) fun _ _ hr =>
    echoes_settle id (verdict_blurred_two (binaryType op) (fun _ => rfl)
      (binaryType_unknown_right op) hl hr)

theorem subscript_echoes {id base index : NodeId}
    (hbase : EchoedAt lacking echo count check check' base)
    (hindex : EchoedAt lacking echo count check check' index) :
    Echoes lacking echo (([base, index].map count).sum) (Ty.Blurred echo)
      (subscript check id base index) (subscript check' id base index) := by
  have h : Echoes lacking echo (count index + (0 + (count base + 0))) (Ty.Blurred echo)
      (subscript check id base index) (subscript check' id base index) :=
    hindex.bind (.refl echo) fun _ _ hi =>
      (echoes_expect hi .int .indexNotInt index).bind (fun _ => trivial) fun _ _ _ =>
      hbase.bind (.refl echo) fun _ _ hb => echoes_settle id
        (verdict_blurred elementType rfl hb)
  apply h.recount
  simp only [List.map_cons, List.map_nil, List.sum_cons, List.sum_nil]
  omega

/-- The arguments of a call are compared with the parameters. -/
theorem arguments_echoes {types types' : List Ty}
    (h : List.Forall₂ (Ty.Blurred echo) types types') (params : List (String × Ty))
    (args : List NodeId) :
    Echoes lacking echo 0 (fun _ _ => True)
      (((params.zip types).zip args).forM fun ((param, ty), arg) =>
        expect ty param.2 (.argument param.2 ty) arg)
      (((params.zip types').zip args).forM fun ((param, ty), arg) =>
        expect ty param.2 (.argument param.2 ty) arg) := by
  induction h generalizing params args with
  | nil =>
    rw [List.zip_nil_right]
    exact echoes_pure trivial
  | cons hhead _ ih =>
    rcases params with _ | ⟨param, params⟩
    · exact echoes_pure trivial
    · rcases args with _ | ⟨arg, args⟩
      · exact echoes_pure trivial
      · exact (echoes_expect hhead param.2 (.argument param.2) arg).bind (fun _ => trivial)
          fun _ _ _ => ih params args

theorem call_echoes {id callee : NodeId} {args : List NodeId}
    (hcallee : EchoedAt lacking echo count check check' callee)
    (hargs : ∀ arg ∈ args, EchoedAt lacking echo count check check' arg) :
    Echoes lacking echo (((callee :: args).map count).sum) (Ty.Blurred echo)
      (call check id callee args) (call check' id callee args) := by
  have hrefl : ∀ types : List Ty, List.Forall₂ (Ty.Blurred echo) types types :=
    fun types => List.forall₂_same.mpr fun ty _ => .refl echo ty
  have h : Echoes lacking echo (count callee + ((args.map count).sum + 0)) (Ty.Blurred echo)
      (call check id callee args) (call check' id callee args) := by
    refine hcallee.bind (.refl echo) fun f f' hf => ?_
    refine (Echoes.mapM (.refl echo) hargs).bind hrefl fun types types' htypes => ?_
    rcases hf with rfl | ⟨hecho, rfl⟩
    · cases f' with
      | unknown => exact echoes_pure (.refl echo _)
      | function params result body =>
        dsimp only
        rw [htypes.length_eq]
        split
        · exact echoes_reject _ id
        · exact (arguments_echoes htypes params args).bind_pure (fun _ => trivial)
            fun _ _ _ => .refl echo result
      | _ => exact echoes_reject _ id
    · have hunknown : ∀ ty : Ty, ty.Blurred echo .unknown := fun _ => .inr ⟨hecho, rfl⟩
      cases f with
      | unknown => exact echoes_pure (.refl echo _)
      | function params result body =>
        dsimp only
        split
        · exact (echoes_reject _ id).silent hecho hunknown
        · exact ((arguments_echoes (hrefl types) params args).bind_pure (fun _ => trivial)
            fun _ _ _ => Ty.Blurred.refl echo result).silent hecho hunknown
      | _ => exact (echoes_reject _ id).silent hecho hunknown
  exact h

/-- What a rule echoes, if it is known what the nodes below echo. -/
def childCount (program : Program) (count : NodeId → Nat) (id : NodeId) : Nat :=
  match program.node? id with
  | none => 0
  | some node => ((node.children program).map count).sum

/-- A rule echoes what the nodes below echo. -/
theorem rule_echoes {id : NodeId} (halike : program.ReadsAlike other id)
    (hlength : ∀ elem length elements,
      program.node? id = some (.arrayLiteral elem length elements) →
        (lacking ∨ (lengthOf length).run.isSome) ∧
          Sizing.Below (lengthOf length) (lengthOf' length))
    (hchildren : ∀ node, program.node? id = some node → ∀ child ∈ node.children program,
      EchoedAt lacking echo count check check' child) :
    Echoes lacking echo (childCount program count id) (Ty.Blurred echo)
      (rule program result lengthOf check id) (rule other result lengthOf' check' id) := by
  unfold rule childCount
  rw [halike.node]
  cases hnode : program.node? id with
  | none => exact echoes_reject _ id
  | some node =>
    have hchild := hchildren node hnode
    have hlists := halike.lists node hnode
    have hinits := halike.inits node hnode
    cases node with
    | int n => exact echoes_pure (.refl echo _)
    | string s => exact echoes_pure (.refl echo _)
    | bool b => exact echoes_pure (.refl echo _)
    | nil => exact echoes_pure (.refl echo _)
    | arrayLiteral elem length elements =>
      obtain ⟨hends, hbelow⟩ := hlength elem length elements hnode
      dsimp only
      rw [hlists elements (List.mem_singleton.mpr rfl)]
      exact arrayLiteral_echoes hends hbelow hchild
    | recordLiteral fields inits =>
      dsimp only
      rw [hinits inits (List.mem_singleton.mpr rfl)]
      exact recordLiteral_echoes fun init hinit => hchild init.value (List.mem_map_of_mem hinit)
    | block body =>
      dsimp only
      rw [hlists body (List.mem_singleton.mpr rfl)]
      exact block_echoes hchild
    | ret value =>
      exact (hchild value List.mem_cons_self).bind (.refl echo) fun _ _ hty =>
        echoes_settle id (verdict_blurred (returnType result) (returnType_unknown result) hty)
    | cond init test thenBranch elseBranch =>
      exact conditional_echoes
        (fun child hmem => hchild child (by simp [Node.children, Option.mem_def.mp hmem]))
        (hchild test (by simp [Node.children])) (hchild thenBranch (by simp [Node.children]))
        (fun child hmem => hchild child (by simp [Node.children, Option.mem_def.mp hmem]))
    | assign target value declares =>
      exact assignment_echoes (hchild target List.mem_cons_self)
        (hchild value (List.mem_cons_of_mem _ List.mem_cons_self))
    | binary op left right =>
      exact binary_echoes (hchild left List.mem_cons_self)
        (hchild right (List.mem_cons_of_mem _ List.mem_cons_self))
    | not operand =>
      exact (hchild operand List.mem_cons_self).bind (.refl echo) fun _ _ hty =>
        echoes_settle id (verdict_blurred negationType rfl hty)
    | var name ty => exact echoes_settle id (.inl rfl)
    | subscript base index =>
      exact subscript_echoes (hchild base List.mem_cons_self)
        (hchild index (List.mem_cons_of_mem _ List.mem_cons_self))
    | select base name =>
      exact (hchild base List.mem_cons_self).bind (.refl echo) fun _ _ hty =>
        echoes_settle id (verdict_blurred (fieldType name) rfl hty)
    | call callee args =>
      dsimp only
      rw [hlists args (List.mem_singleton.mpr rfl)]
      exact call_echoes (hchild callee List.mem_cons_self) fun arg harg =>
        hchild arg (List.mem_cons_of_mem _ harg)

end Typing

/-! ### Checking -/

open Checking

theorem Typing.childCount_zero (program : Program) (id : NodeId) :
    Typing.childCount program (fun _ => 0) id = 0 := by
  unfold Typing.childCount
  cases program.node? id <;> simp

/-- Where two programs read alike and evaluate lengths alike, checking records the same and yields
the same type, also with more fuel.  It ends with as much fuel as the paths of references are
long. -/
theorem check_echoes_region {program other : Program} {result : Option Ty} {lacking : Prop}
    {named : String → Prop} {inside : NodeId → Prop} (hregion : program.Region other named inside)
    (hstatic : ∀ fuel length, inside length →
      eval other fuel {} length {} = eval program fuel {} length {})
    {fuel fuel' : Nat} (hfuel : fuel ≤ fuel') {id : NodeId} (hid : inside id)
    (henough : lacking ∨ program.EndsWithin fuel id) :
    Echoes lacking #[] 0 (Ty.Blurred #[]) (check program result fuel id)
      (check other result fuel' id) := by
  induction fuel generalizing fuel' id with
  | zero => exact fun mismatches => .inl ⟨henough.resolve_right not_false, rfl⟩
  | succ fuel ih =>
    obtain ⟨fuel', rfl⟩ : ∃ n, fuel' = n + 1 := ⟨fuel' - 1, by omega⟩
    have hbelow : ∀ ref, program.Refers id ref → lacking ∨ program.EndsWithin fuel ref :=
      fun ref hrefers => henough.imp_right fun h => h ref hrefers
    rw [check_succ, check_succ]
    refine (Typing.rule_echoes (hregion.alike hid) (fun elem length elements hnode => ?_)
      fun node hnode child hchild => ?_).recount (Typing.childCount_zero program id)
    · have hrefers : program.Refers id length :=
        Program.refers_of_length hnode (by simp [Node.lengths, Ty.lengths])
      have heq : staticLength (eval program fuel) length =
          staticLength (eval other fuel) length := by
        rw [staticLength, staticLength, hstatic fuel length (hregion.closed hid hrefers)]
      refine ⟨(hbelow length hrefers).imp_right fun h => h.staticLength_isSome, ?_⟩
      rw [heq]
      exact staticLength_below (eval_below other (by omega)) length
    · have hrefers := Program.refers_of_child hnode hchild
      exact ih (by omega) (hregion.closed hid hrefers) (hbelow child hrefers)

/-- Checking with more fuel, and after other mismatches, records the same and yields the same
type. -/
theorem check_echoes_self {program : Program} {result : Option Ty} {lacking : Prop}
    {fuel fuel' : Nat} (hfuel : fuel ≤ fuel') {id : NodeId}
    (henough : lacking ∨ program.EndsWithin fuel id) :
    Echoes lacking #[] 0 (Ty.Blurred #[]) (check program result fuel id)
      (check program result fuel' id) :=
  check_echoes_region program.region_self (fun _ _ _ => rfl) hfuel trivial henough

/-- Where nothing is echoed, both checks append the same, after whatever was recorded before. -/
theorem Checking.Echoes.exists_added {lacking : Prop} {n : Nat} {checking checking' : Checking Ty}
    (h : Echoes lacking #[] n (Ty.Blurred #[]) checking checking') {ty : Ty}
    {mismatches final : Array (Located Mismatch)} (hsome : checking mismatches = some (ty, final)) :
    ∃ added, final = mismatches ++ added ∧
      ∀ mismatches', checking' mismatches' = some (ty, mismatches' ++ added) := by
  rcases h mismatches with ⟨-, hnone⟩ | ⟨ty', added, hchecking, hecho⟩
  · cases hnone.symm.trans hsome
  · cases hchecking.symm.trans hsome
    refine ⟨added, rfl, fun mismatches' => ?_⟩
    obtain ⟨ty', hty, hchecking'⟩ := hecho (.inl rfl) mismatches'
    obtain rfl := hty.resolve_right fun hblurred => hblurred.1 rfl
    rw [hchecking', repeated_empty, Array.append_empty]

/-- An outcome of either check is the outcome of the other, so they are the same. -/
theorem Checking.Echoes.eq {lacking lacking' : Prop} {n n' : Nat} {checking checking' : Checking Ty}
    (h : Echoes lacking #[] n (Ty.Blurred #[]) checking checking')
    (h' : Echoes lacking' #[] n' (Ty.Blurred #[]) checking' checking) : checking' = checking := by
  funext mismatches
  refine Option.ext fun outcome => ?_
  obtain ⟨ty, final⟩ := outcome
  constructor
  · intro hsome'
    obtain ⟨added, rfl, happend⟩ := h'.exists_added hsome'
    exact happend mismatches
  · intro hsome
    obtain ⟨added, rfl, happend⟩ := h.exists_added hsome
    exact happend mismatches

/-- What is recorded from the beginning is recorded after anything else as well. -/
theorem check_append {program : Program} {result : Option Ty} {fuel fuel' : Nat}
    (hfuel : fuel ≤ fuel') {id : NodeId} {ty : Ty} {added : Array (Located Mismatch)}
    (h : check program result fuel id #[] = some (ty, added))
    (mismatches : Array (Located Mismatch)) :
    check program result fuel' id mismatches = some (ty, mismatches ++ added) := by
  have hself : Echoes True #[] 0 (Ty.Blurred #[]) (check program result fuel id)
      (check program result fuel' id) := check_echoes_self hfuel (.inl trivial)
  obtain ⟨added', heq, happend⟩ := hself.exists_added h
  rw [Array.empty_append] at heq
  subst heq
  exact happend mismatches

end Arbor
