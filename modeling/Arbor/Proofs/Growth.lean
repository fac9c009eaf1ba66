import Arbor.Proofs.Echo

/-!
# Programs that grow

A program is built by adding to its three storages.  Numbers that no node carries
and spans that leave their storage can be read as well, as missing nodes and as
empty lists, so what a node means may change when something is added.

It does not in a *closed* program, where all that the nodes name lies inside.  A
storage keeps its cells in their places when it grows, so each node and each list
reads as before, and evaluation and checking never come to anything else.  Only a
function at hand might lead out of the program, so its body has to lie inside too.

* `Program.GrowsInto.begins` — additions leave everything in its place;
* `Program.Begins.region` — a closed program reads the same afterwards;
* `unchanged_by_additions` — evaluation, checking, lengths and defaults are the same.
-/

namespace Arbor

namespace Program

variable {program other : Program}

/-! ### Additions -/

/-- One addition to one of the storages. -/
inductive Addition (program : Program) : Program → Prop where
  | node (node : Node) : Addition program (program.addNode node).2
  | list (ids : List NodeId) : Addition program (program.addList ids).2
  | inits (inits : List FieldInit) : Addition program (program.addInits inits).2

/-- Any additions, one after another. -/
def GrowsInto (program other : Program) : Prop :=
  Relation.ReflTransGen Addition program other

/-- The storages of `other` begin with those of the program. -/
structure Begins (program other : Program) : Prop where
  nodes : ∃ more, other.nodes = program.nodes ++ more
  childCells : ∃ more, other.childCells = program.childCells ++ more
  initCells : ∃ more, other.initCells = program.initCells ++ more

theorem Begins.refl (program : Program) : program.Begins program :=
  ⟨⟨#[], by simp⟩, ⟨#[], by simp⟩, ⟨#[], by simp⟩⟩

theorem Begins.trans {middle : Program} (h : program.Begins middle) (h' : middle.Begins other) :
    program.Begins other := by
  obtain ⟨⟨nodes, hnodes⟩, ⟨children, hchildren⟩, ⟨inits, hinits⟩⟩ := h
  obtain ⟨⟨nodes', hnodes'⟩, ⟨children', hchildren'⟩, ⟨inits', hinits'⟩⟩ := h'
  exact ⟨⟨nodes ++ nodes', by rw [hnodes', hnodes, Array.append_assoc]⟩,
    ⟨children ++ children', by rw [hchildren', hchildren, Array.append_assoc]⟩,
    ⟨inits ++ inits', by rw [hinits', hinits, Array.append_assoc]⟩⟩

theorem Addition.begins (h : program.Addition other) : program.Begins other := by
  cases h with
  | node node =>
    exact ⟨⟨#[node], Array.push_eq_append⟩, ⟨#[], Array.append_empty.symm⟩,
      ⟨#[], Array.append_empty.symm⟩⟩
  | list ids =>
    exact ⟨⟨#[], Array.append_empty.symm⟩, ⟨ids.toArray, Array.ext' (by simp [addList])⟩,
      ⟨#[], Array.append_empty.symm⟩⟩
  | inits inits =>
    exact ⟨⟨#[], Array.append_empty.symm⟩, ⟨#[], Array.append_empty.symm⟩,
      ⟨inits.toArray, Array.ext' (by simp [addInits])⟩⟩

/-- Whatever is added, everything stays in its place. -/
theorem GrowsInto.begins (h : program.GrowsInto other) : program.Begins other := by
  induction h with
  | refl => exact .refl program
  | tail _ hadd ih => exact ih.trans hadd.begins

/-! ### Closed programs -/

/-- There is a node of this number. -/
def Holds (program : Program) (id : NodeId) : Prop :=
  id.index.toNat < program.size

instance (id : NodeId) : Decidable (program.Holds id) :=
  inferInstanceAs (Decidable (_ < _))

/-- All that the nodes name lies inside the program: the nodes that they refer to, and the spans of
their lists. -/
structure Closed (program : Program) : Prop where
  refers : ∀ {id ref : NodeId}, program.Refers id ref → program.Holds ref
  lists : ∀ {id : NodeId} {node : Node}, program.node? id = some node →
    ∀ span ∈ node.lists, span.stop ≤ program.childCells.size
  inits : ∀ {id : NodeId} {node : Node}, program.node? id = some node →
    ∀ span ∈ node.initLists, span.stop ≤ program.initCells.size

/-- It is enough to look at the nodes one by one. -/
theorem closed_of_forall (h : ∀ (i : Nat) (hi : i < program.size),
    (∀ ref ∈ program.nodes[i].references program, ref.index.toNat < program.size) ∧
    (∀ span ∈ program.nodes[i].lists, span.stop ≤ program.childCells.size) ∧
    ∀ span ∈ program.nodes[i].initLists, span.stop ≤ program.initCells.size) :
    program.Closed := by
  constructor
  · intro id ref hrefers
    obtain ⟨node, hnode, href⟩ := hrefers
    obtain ⟨hi, rfl⟩ := Array.getElem?_eq_some_iff.mp hnode
    exact (h id.index.toNat hi).1 ref href
  · intro id node hnode
    obtain ⟨hi, rfl⟩ := Array.getElem?_eq_some_iff.mp hnode
    exact (h id.index.toNat hi).2.1
  · intro id node hnode
    obtain ⟨hi, rfl⟩ := Array.getElem?_eq_some_iff.mp hnode
    exact (h id.index.toNat hi).2.2

/-- A node of a closed program reads the same in a program that begins with it. -/
theorem Begins.readsAlike (h : program.Begins other) (hclosed : program.Closed) {id : NodeId}
    (hid : program.Holds id) : program.ReadsAlike other id := by
  obtain ⟨⟨nodes, hnodes⟩, ⟨children, hchildren⟩, ⟨inits, hinits⟩⟩ := h
  refine ⟨?_, fun node hnode span hspan => ?_, fun node hnode span hspan => ?_⟩
  · rw [node?, hnodes]
    exact Array.getElem?_append_left hid
  · rw [Program.children, hchildren]
    exact Span.cells_append (hclosed.lists hnode span hspan) children
  · rw [Program.fieldInits, hinits]
    exact Span.cells_append (hclosed.inits hnode span hspan) inits

theorem Begins.region (h : program.Begins other) (hclosed : program.Closed) :
    program.Region other (fun _ => True) program.Holds :=
  ⟨fun hid => h.readsAlike hclosed hid, fun _ hrefers => hclosed.refers hrefers,
    fun _ _ => trivial⟩

/-! ### Evaluation and checking -/

/-- If the value is a function, its body is a node of the program. -/
def HoldsBody (program : Program) (m : Marked) : Prop :=
  ∀ signature, m.value = .function signature → program.Holds signature.body

variable {inside : NodeId → Prop}

theorem Region.staticLength_eq (hregion : program.Region other (fun _ => True) inside) (fuel : Nat)
    {length : NodeId} (hlength : inside length) :
    staticLength (eval other fuel) length = staticLength (eval program fuel) length := by
  rw [staticLength, staticLength, hregion.eval_eq State.everywhere_empty fuel {} hlength]

theorem Region.defaultValue_eq (hregion : program.Region other (fun _ => True) inside) (fuel : Nat)
    {ty : Ty} (hty : ∀ length ∈ ty.lengths, inside length) :
    defaultValue (staticLength (eval other fuel)) ty =
      defaultValue (staticLength (eval program fuel)) ty := by
  have hlengths : ∀ length ∈ ty.lengths, Sizing.Agree True
      (staticLength (eval program fuel) length) (staticLength (eval other fuel) length) :=
    fun length hlength => ⟨hregion.staticLength_eq fuel (hty length hlength), .inl trivial⟩
  exact (defaultValue_agree hlengths).1

/-- Two programs that read alike are checked alike. -/
theorem Region.check_eq (hregion : program.Region other (fun _ => True) inside) (result : Option Ty)
    (fuel : Nat) {id : NodeId} (hid : inside id) :
    check other result fuel id = check program result fuel id := by
  have hstatic : ∀ fuel length, inside length →
      eval other fuel {} length {} = eval program fuel {} length {} :=
    fun fuel length hlength => hregion.eval_eq State.everywhere_empty fuel {} hlength
  have hforth : Checking.Echoes True #[] 0 (Ty.Blurred #[]) (check program result fuel id)
      (check other result fuel id) :=
    check_echoes_region hregion hstatic le_rfl hid (.inl trivial)
  have hback : Checking.Echoes True #[] 0 (Ty.Blurred #[]) (check other result fuel id)
      (check program result fuel id) :=
    check_echoes_region hregion.symm (fun fuel length hlength => (hstatic fuel length hlength).symm)
      le_rfl hid (.inl trivial)
  exact hforth.eq hback

end Program

open Program

/-- **Additions change nothing that was there.**  However much is added to a closed program, each
of its nodes is evaluated and checked as before, with the same outcome for any fuel, and the lengths
and the defaults of types come out the same.  The variables hold no function whose body lies
outside, at whatever depth. -/
theorem unchanged_by_additions {program other : Program} (hclosed : program.Closed)
    (hgrows : program.GrowsInto other) :
    (∀ fuel frame id state, program.Holds id → state.Everywhere program.HoldsBody →
      eval other fuel frame id state = eval program fuel frame id state) ∧
    (∀ result fuel id mismatches, program.Holds id →
      check other result fuel id mismatches = check program result fuel id mismatches) ∧
    (∀ fuel length, program.Holds length →
      staticLength (eval other fuel) length = staticLength (eval program fuel) length) ∧
    ∀ fuel ty, (∀ length ∈ ty.lengths, program.Holds length) →
      defaultValue (staticLength (eval other fuel)) ty =
        defaultValue (staticLength (eval program fuel)) ty := by
  have hregion := hgrows.begins.region hclosed
  refine ⟨fun fuel frame id state hid hstate => ?_, fun result fuel id mismatches hid => ?_,
    fun fuel length hlength => ?_, fun fuel ty hty => ?_⟩
  · exact hregion.eval_eq hstate fuel frame hid
  · rw [hregion.check_eq result fuel hid]
  · exact hregion.staticLength_eq fuel hlength
  · exact hregion.defaultValue_eq fuel hty

/-- Calls a function that counts on by one; an array literal uses the same list. -/
def successorProgram : Program where
  nodes := #[.int 1, .var "next" .undefined, .call ⟨1⟩ ⟨0, 1⟩, .var "n" .int,
    .binary .add ⟨3⟩ ⟨0⟩, .arrayLiteral .int ⟨0⟩ ⟨0, 1⟩]
  childCells := #[⟨0⟩]

/-- The function is bound. -/
def successorState : State where
  globals := .ofPairs [("next", .plain (.function ⟨[("n", .int)], .int, ⟨4⟩⟩))]

/-- An addition to each storage, which the nodes before do not see. -/
def grownProgram : Program :=
  (((successorProgram.addNode .nil).2.addList [⟨6⟩, ⟨9⟩]).2.addInits [⟨"n", ⟨6⟩⟩]).2

theorem unchanged_by_additions_grownProgram :
    successorProgram.Closed ∧ successorProgram.GrowsInto grownProgram ∧
    successorState.Everywhere successorProgram.HoldsBody ∧
    Evaluates grownProgram {} ⟨2⟩ successorState (.plain (.int 2)) successorState ∧
    check grownProgram none 2 ⟨5⟩ #[] = some (.array .int ⟨0⟩, #[]) ∧
    (staticLength (eval grownProgram 1) ⟨0⟩).run = some (.ok 1) ∧
    (defaultValue (staticLength (eval grownProgram 1)) (.array .int ⟨0⟩)).run =
      some (.ok (.list .int ⟨0⟩ [.plain (.int 0)])) := by
  have hclosed : successorProgram.Closed := closed_of_forall (by decide)
  have hgrows : successorProgram.GrowsInto grownProgram :=
    ((Relation.ReflTransGen.single (.node .nil)).tail (.list _)).tail (.inits _)
  have hstate : successorState.Everywhere successorProgram.HoldsBody := by
    refine ⟨Namespace.everywhere_empty, Namespace.everywhere_ofPairs fun pair hpair => ?_⟩
    obtain rfl := List.mem_singleton.mp hpair
    refine Marked.everywhere_of_parts_eq_nil rfl fun signature hfunction => ?_
    cases hfunction
    decide
  obtain ⟨heval, hcheck, hlength, hdefault⟩ := unchanged_by_additions hclosed hgrows
  have hlengths : ∀ length ∈ (Ty.array .int ⟨0⟩).lengths, successorProgram.Holds length :=
    List.forall_mem_singleton.mpr (by decide)
  refine ⟨hclosed, hgrows, hstate, ⟨3, ?_⟩, ?_, ?_, ?_⟩
  · rw [heval 3 {} ⟨2⟩ successorState (by decide) hstate]
    rfl
  · rw [hcheck none 2 ⟨5⟩ #[] (by decide)]
    rfl
  · rw [hlength 1 ⟨0⟩ (by decide)]
    rfl
  · rw [hdefault 1 _ hlengths]
    rfl

end Arbor
