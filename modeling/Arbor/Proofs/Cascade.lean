import Arbor.Proofs.Echo

/-!
# One mistake does not cascade

A program is accepted, and then one of its nodes is replaced by something
mistaken.  The checker reports the mistake wherever it comes to the node, and
nothing else: the type of the node is unknown, every node above it echoes what was
recorded there, and all other nodes are checked as before.

No length of an array literal may depend on the node, since lengths are evaluated,
not checked.

* `Program.visits` — how often checking comes to a node;
* `check_echoes_replaced` — every node of the changed program echoes the mistake;
* `mistake_reported_per_visit` — what the checker reports, as a whole.
-/

namespace Arbor

open Filter Checking

namespace Program

variable {program other : Program} {h : NodeId}

/-- How often checking a node comes to `h`, over so many levels. What is below `h` is not looked
at. -/
def visits (program : Program) (h : NodeId) : Nat → NodeId → Nat
  | 0, _ => 0
  | depth + 1, id => if id = h then 1 else Typing.childCount program (program.visits h depth) id

/-- Replace one node. -/
def replaceNode (program : Program) (h : NodeId) (node : Node) : Program :=
  { program with nodes := program.nodes.setIfInBounds h.index.toNat node }

/-- Nothing else is read differently. -/
theorem readsAlike_replaceNode (program : Program) (node : Node) {id : NodeId} (hid : id ≠ h) :
    program.ReadsAlike (program.replaceNode h node) id := by
  have hindex : h.index.toNat ≠ id.index.toNat := by
    intro heq
    apply hid
    obtain ⟨index⟩ := id
    obtain ⟨index'⟩ := h
    exact congrArg NodeId.mk (UInt32.toNat_inj.mp heq.symm)
  exact ⟨Array.getElem?_setIfInBounds_ne hindex, fun _ _ _ _ => rfl, fun _ _ _ _ => rfl⟩

/-- Both programs come to `h` equally often. -/
theorem visits_eq (halike : ∀ id, id ≠ h → program.ReadsAlike other id) (depth : Nat)
    (id : NodeId) : other.visits h depth id = program.visits h depth id := by
  induction depth generalizing id with
  | zero => rfl
  | succ depth ih =>
    by_cases hid : id = h
    · rw [visits, visits, if_pos hid, if_pos hid]
    · have hcount : other.visits h depth = program.visits h depth := funext ih
      rw [visits, visits, if_neg hid, if_neg hid, hcount, Typing.childCount, Typing.childCount,
        (halike id hid).node]
      cases hnode : program.node? id with
      | none => rfl
      | some node =>
        dsimp only
        rw [(halike id hid).children_eq hnode]

/-- A length that does not depend on `h` is the same in both programs. -/
theorem eval_eq_of_not_reaches (halike : ∀ id, id ≠ h → program.ReadsAlike other id) (fuel : Nat)
    {length : NodeId} (hlength : ¬ program.Reaches length h) :
    eval other fuel {} length {} = eval program fuel {} length {} := by
  have hregion : program.Region other (fun _ => True) fun id => ¬ program.Reaches id h := by
    refine ⟨fun hid => halike _ fun heq => hid ?_, fun hid hrefers hreaches => hid ?_,
      fun _ _ => trivial⟩
    · rw [heq]
      exact Relation.ReflTransGen.refl
    · exact hreaches.head hrefers
  exact hregion.eval_eq State.everywhere_empty fuel {} hlength

end Program

variable {program other : Program} {result : Option Ty} {h : NodeId}
  {echo : Array (Located Mismatch)}

/-- Every node of the changed program echoes the mistake, once for each visit. -/
theorem check_echoes_replaced (halike : ∀ id, id ≠ h → program.ReadsAlike other id)
    (hlengths : ∀ id elem length elements, id ≠ h →
      program.node? id = some (.arrayLiteral elem length elements) → ¬ program.Reaches length h)
    {extra : Nat} (hbad : check other result extra h #[] = some (.unknown, echo))
    (hecho : echo ≠ #[]) (fuel : Nat) (id : NodeId) :
    Echoes True echo (program.visits h fuel id) (Ty.Blurred echo) (check program result fuel id)
      (check other result (fuel + extra) id) := by
  induction fuel generalizing id with
  | zero => exact fun _ => .inl ⟨trivial, rfl⟩
  | succ fuel ih =>
    by_cases hid : id = h
    · -- at the node itself, the accepted check only has to end
      subst hid
      have hself : Echoes True #[] 0 (Ty.Blurred #[]) (check program result (fuel + 1) id)
          (check program result (fuel + 1) id) := check_echoes_self le_rfl (.inl trivial)
      rw [Program.visits, if_pos rfl]
      intro mismatches
      refine (hself mismatches).imp_right ?_
      intro hended
      obtain ⟨ty, added, hcheck, -⟩ := hended
      refine ⟨ty, added, hcheck, fun hquiet mismatches' => ⟨.unknown, .inr ⟨hecho, rfl⟩, ?_⟩⟩
      rw [check_append (Nat.le_add_left extra (fuel + 1)) hbad, hquiet.resolve_left hecho, repeated,
        repeated, Array.empty_append, Array.append_empty]
    · rw [Program.visits, if_neg hid, Nat.succ_add, check_succ, check_succ]
      refine Typing.rule_echoes (halike id hid)
        (fun elem length elements hnode => ⟨.inl trivial, ?_⟩) fun _ _ child _ => ih child
      have heq : staticLength (eval program fuel) length =
          staticLength (eval other fuel) length := by
        rw [staticLength, staticLength, Program.eval_eq_of_not_reaches halike fuel
          (hlengths id elem length elements hid hnode)]
      rw [heq]
      exact staticLength_below (eval_below other (Nat.le_add_right fuel extra)) length

/-- **One mistake is reported once per visit.**  Where a program is accepted, replace a node that no
length of an array literal depends on.  If the new node by itself is reported with `echo` and has
an unknown type, then checking the whole reports `echo` each time it comes to the node, and
nothing else. -/
theorem mistake_reported_per_visit {root : NodeId} {ty : Ty}
    (halike : ∀ id, id ≠ h → program.ReadsAlike other id)
    (hlengths : ∀ id elem length elements, id ≠ h →
      program.node? id = some (.arrayLiteral elem length elements) → ¬ program.Reaches length h)
    (haccepts : Accepts program result root ty)
    (hbad : ∃ fuel, check other result fuel h #[] = some (.unknown, echo)) (hecho : echo ≠ #[]) :
    ∃ n, (∀ᶠ depth in atTop, other.visits h depth root = n) ∧
      ∃ fuel ty', check other result fuel root #[] = some (ty', repeated echo n) ∧
        (ty' = ty ∨ ty' = .unknown) := by
  obtain ⟨fuel, haccepts⟩ := haccepts
  obtain ⟨extra, hbad⟩ := hbad
  have hreported : ∀ depth, fuel ≤ depth → ∃ ty', ty.Blurred echo ty' ∧
      check other result (depth + extra) root #[] =
        some (ty', repeated echo (program.visits h depth root)) := by
    intro depth hdepth
    have hpasses : check program result depth root #[] = some (ty, #[]) := by
      have happend := check_append hdepth haccepts #[]
      rwa [Array.append_empty] at happend
    rcases check_echoes_replaced halike hlengths hbad hecho depth root #[] with ⟨-, hnone⟩ |
      ⟨_, added, hsome, hechoes⟩
    · rw [hpasses] at hnone
      cases hnone
    · rw [hpasses, Array.empty_append] at hsome
      cases hsome
      obtain ⟨ty', hty, hcheck⟩ := hechoes (.inr rfl) #[]
      rw [Array.empty_append, Array.empty_append] at hcheck
      exact ⟨ty', hty, hcheck⟩
  -- more levels report the same, and the size of the report tells the number of visits
  obtain ⟨ty', hty, hcheck⟩ := hreported fuel le_rfl
  refine ⟨program.visits h fuel root, eventually_atTop.mpr ⟨fuel, fun depth hdepth => ?_⟩,
    fuel + extra, ty', hcheck, hty.imp_right And.right⟩
  obtain ⟨_, -, hlater⟩ := hreported depth hdepth
  have hsame := check_append (Nat.add_le_add_right hdepth extra) hcheck #[]
  rw [hlater, Array.empty_append] at hsame
  have hsize := congrArg (·.size) (Prod.mk.inj (Option.some.inj hsame)).2
  simp only [size_repeated] at hsize
  rw [Program.visits_eq halike]
  exact Nat.eq_of_mul_eq_mul_right (Array.size_pos_iff.mpr hecho) hsize

/-- An array of a sum and its operand; the operand is shared, and has yet to be replaced. -/
def sharingProgram : Program where
  nodes := #[.int 2, .string "two", .int 5, .binary .add ⟨2⟩ ⟨2⟩, .arrayLiteral .int ⟨0⟩ ⟨0, 2⟩]
  childCells := #[⟨3⟩, ⟨2⟩]

theorem mistake_reported_per_visit_sharingProgram :
    ∃ n, (∀ᶠ depth in atTop,
        (sharingProgram.replaceNode ⟨2⟩ (.binary .add ⟨0⟩ ⟨1⟩)).visits ⟨2⟩ depth ⟨4⟩ = n) ∧
      ∃ fuel ty', check (sharingProgram.replaceNode ⟨2⟩ (.binary .add ⟨0⟩ ⟨1⟩)) none fuel ⟨4⟩ #[] =
          some (ty', repeated #[⟨.operands .int .string, ⟨2⟩⟩] n) ∧
        (ty' = .array .int ⟨0⟩ ∨ ty' = .unknown) := by
  have hlengths : ∀ id elem length elements, id ≠ ⟨2⟩ →
      sharingProgram.node? id = some (.arrayLiteral elem length elements) →
      ¬ sharingProgram.Reaches length ⟨2⟩ := by
    intro id elem length elements _ hnode hreaches
    have hmem : Node.arrayLiteral elem length elements ∈ sharingProgram.nodes :=
      Array.mem_of_getElem? hnode
    simp only [sharingProgram, List.mem_toArray, List.mem_cons, Node.arrayLiteral.injEq,
      reduceCtorEq, false_or, List.not_mem_nil, or_false] at hmem
    obtain ⟨-, rfl, -⟩ := hmem
    rcases hreaches.cases_head with heq | ⟨ref, ⟨node, hnode, href⟩, -⟩
    · cases heq
    · cases hnode
      cases href
  exact mistake_reported_per_visit (fun id hid => sharingProgram.readsAlike_replaceNode _ hid)
    hlengths ⟨3, rfl⟩ ⟨2, rfl⟩ (by simp)

end Arbor
