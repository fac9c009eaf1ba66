import Arbor.Proofs.Growth

/-!
# What is issued stands

Adding to a program is answered with a number, or with a span of one of the two cell
storages.  The storages only grow, each at its end.  So an answer denotes what was
added, whatever is added later, and two answers never share a node or a cell: the one
that is issued later lies behind all that was there before.

All this needs storages that a 32-bit word can address.  Reading needs nothing: a span
of any two words reads as the cells between its bounds, or as none if these leave the
storage, and in 64 bits the upper bound cannot wrap.

* `Program.serve_denotedIn`, `Program.serve_between` — one addition: the answer denotes
  what was added, and lies between the storages before and after;
* `Program.Issue.DenotedIn.begins` — what lies inside keeps its meaning;
* `Program.serveAll_denotedIn`, `Program.serveAll_apart` — any additions, one after
  another;
* `issues_stand` — these together, and how spans are read.
-/

namespace Arbor

/-- The cell lies in the span. -/
def Span.Covers {α : Type} (span : Span α) (cell : Nat) : Prop :=
  span.start.toNat ≤ cell ∧ cell < span.stop

/-- No cell lies in both spans. -/
def Span.Apart {α : Type} (span other : Span α) : Prop :=
  ∀ cell, ¬ (span.Covers cell ∧ other.Covers cell)

theorem Span.apart_of_le {α : Type} {span other : Span α} (h : span.stop ≤ other.start.toNat) :
    span.Apart other := by
  rintro cell ⟨⟨-, hbelow⟩, habove, -⟩
  omega

/-- Two words are added in 64 bits without wrapping. -/
theorem Span.toNat_stop {α : Type} (span : Span α) :
    (span.start.toUInt64 + span.length.toUInt64).toNat = span.stop := by
  have hstart := span.start.toNat_lt
  have hlength := span.length.toNat_lt
  rw [UInt64.toNat_add, UInt32.toNat_toUInt64, UInt32.toNat_toUInt64, Span.stop]
  omega

/-- A span reads as its slice of the storage, or as nothing. -/
theorem Span.cells_eq_ite {α : Type} (span : Span α) (storage : Array α) :
    span.cells storage = if span.stop ≤ storage.size then
      (storage.toList.drop span.start.toNat).take span.length.toNat else [] := by
  split
  · next h => exact Span.cells_eq_take_drop h
  · next h => exact Span.cells_eq_nil (Nat.not_le.mp h)

namespace Program

variable {program other final : Program}

/-! ### Requests and answers -/

/-- Something to be added to a program. -/
inductive Request where
  | node (node : Node)
  | list (ids : List NodeId)
  | inits (inits : List FieldInit)

/-- The answer to a request, together with what it was given for. -/
inductive Issue where
  | node (id : NodeId) (node : Node)
  | list (span : Span NodeId) (ids : List NodeId)
  | inits (span : Span FieldInit) (inits : List FieldInit)

/-- Add what is requested. -/
def serve (program : Program) : Request → Issue × Program
  | .node node => (.node (program.addNode node).1 node, (program.addNode node).2)
  | .list ids => (.list (program.addList ids).1 ids, (program.addList ids).2)
  | .inits inits => (.inits (program.addInits inits).1 inits, (program.addInits inits).2)

/-- Add what is requested, one after another. -/
def serveAll (program : Program) : List Request → List Issue × Program
  | [] => ([], program)
  | request :: rest =>
    let served := program.serve request
    let more := served.2.serveAll rest
    (served.1 :: more.1, more.2)

theorem serveAll_append (program : Program) (requests later : List Request) :
    program.serveAll (requests ++ later) =
      ((program.serveAll requests).1 ++ ((program.serveAll requests).2.serveAll later).1,
        ((program.serveAll requests).2.serveAll later).2) := by
  induction requests generalizing program with
  | nil => rfl
  | cons request rest ih => simp [serveAll, ih]

theorem serve_addition (program : Program) (request : Request) :
    program.Addition (program.serve request).2 := by
  cases request with
  | node node => exact .node node
  | list ids => exact .list ids
  | inits inits => exact .inits inits

theorem serveAll_begins (program : Program) (requests : List Request) :
    program.Begins (program.serveAll requests).2 := by
  induction requests generalizing program with
  | nil => exact .refl program
  | cons request rest ih => exact (program.serve_addition request).begins.trans (ih _)

/-! ### Sizes -/

/-- No storage has more cells than a 32-bit word can number. -/
structure Numberable (program : Program) : Prop where
  nodes : program.size < UInt32.size
  childCells : program.childCells.size < UInt32.size
  initCells : program.initCells.size < UInt32.size

theorem Begins.size_le (h : program.Begins other) : program.size ≤ other.size := by
  obtain ⟨more, hmore⟩ := h.nodes
  rw [size, size, hmore, Array.size_append]
  exact Nat.le_add_right _ _

theorem Begins.childCells_le (h : program.Begins other) :
    program.childCells.size ≤ other.childCells.size := by
  obtain ⟨more, hmore⟩ := h.childCells
  rw [hmore, Array.size_append]
  exact Nat.le_add_right _ _

theorem Begins.initCells_le (h : program.Begins other) :
    program.initCells.size ≤ other.initCells.size := by
  obtain ⟨more, hmore⟩ := h.initCells
  rw [hmore, Array.size_append]
  exact Nat.le_add_right _ _

/-- What begins a numberable program is numberable. -/
theorem Begins.numberable (h : program.Begins other) (hother : other.Numberable) :
    program.Numberable where
  nodes := Nat.lt_of_le_of_lt h.size_le hother.nodes
  childCells := Nat.lt_of_le_of_lt h.childCells_le hother.childCells
  initCells := Nat.lt_of_le_of_lt h.initCells_le hother.initCells

/-! ### What is issued -/

namespace Issue

variable {issue issue' : Issue}

/-- What was requested. -/
def request : Issue → Request
  | .node _ added => .node added
  | .list _ added => .list added
  | .inits _ added => .inits added

/-- The answer denotes what it was given for. -/
def DenotedIn (program : Program) : Issue → Prop
  | .node id added => program.node? id = some added
  | .list span added => program.children span = added
  | .inits span added => program.fieldInits span = added

/-- The answer lies behind all that is in the first program, and inside the second one. -/
def Between (program other : Program) : Issue → Prop
  | .node id _ => program.size ≤ id.index.toNat ∧ id.index.toNat < other.size
  | .list span _ =>
    program.childCells.size ≤ span.start.toNat ∧ span.stop ≤ other.childCells.size
  | .inits span _ =>
    program.initCells.size ≤ span.start.toNat ∧ span.stop ≤ other.initCells.size

/-- Different nodes, or spans without a common cell. Answers from different storages have nothing
to do with each other. -/
def Apart : Issue → Issue → Prop
  | .node id _, .node id' _ => id ≠ id'
  | .list span _, .list span' _ => span.Apart span'
  | .inits span _, .inits span' _ => span.Apart span'
  | _, _ => True

/-- What lies inside a program keeps its meaning when the program grows. -/
theorem DenotedIn.begins (h : issue.DenotedIn other) (hinside : issue.Between program other)
    (hbegins : other.Begins final) : issue.DenotedIn final := by
  obtain ⟨⟨nodes, hnodes⟩, ⟨children, hchildren⟩, ⟨inits, hinits⟩⟩ := hbegins
  cases issue with
  | node id added =>
    show final.node? id = some added
    rw [node?, hnodes, Array.getElem?_append_left hinside.2]
    exact h
  | list span added =>
    show final.children span = added
    rw [Program.children, hchildren, Span.cells_append hinside.2]
    exact h
  | inits span added =>
    show final.fieldInits span = added
    rw [Program.fieldInits, hinits, Span.cells_append hinside.2]
    exact h

theorem Between.mono {first : Program} (h : issue.Between program other)
    (hfirst : first.Begins program) (hfinal : other.Begins final) : issue.Between first final := by
  cases issue with
  | node id added =>
    exact ⟨Nat.le_trans hfirst.size_le h.1, Nat.lt_of_lt_of_le h.2 hfinal.size_le⟩
  | list span added =>
    exact ⟨Nat.le_trans hfirst.childCells_le h.1, Nat.le_trans h.2 hfinal.childCells_le⟩
  | inits span added =>
    exact ⟨Nat.le_trans hfirst.initCells_le h.1, Nat.le_trans h.2 hfinal.initCells_le⟩

/-- What lies behind a program is apart from what lies inside. -/
theorem Between.apart (h : issue.Between program other) (h' : issue'.Between other final) :
    issue.Apart issue' := by
  cases issue <;> cases issue' <;> try trivial
  · rintro rfl
    exact Nat.not_lt.mpr h'.1 h.2
  · exact Span.apart_of_le (Nat.le_trans h.2 h'.1)
  · exact Span.apart_of_le (Nat.le_trans h.2 h'.1)

end Issue

/-! ### Serving requests -/

theorem size_appendList {α : Type} (storage : Array α) (added : List α) :
    (storage ++ added).size = storage.size + added.length := by
  rw [← Array.length_toList, Array.toList_appendList, List.length_append, Array.length_toList]

/-- The span of an appended list reaches from the old end of the storage to the new one. -/
theorem appendedSpan_between {α : Type} (storage : Array α) (added : List α)
    (h : (storage ++ added).size < UInt32.size) :
    storage.size ≤ (appendedSpan α storage.size added.length).start.toNat ∧
      (appendedSpan α storage.size added.length).stop ≤ (storage ++ added).size := by
  rw [size_appendList] at h ⊢
  rw [Span.stop, appendedSpan_start α h, appendedSpan_length α h]
  exact ⟨le_rfl, le_rfl⟩

theorem serve_denotedIn {request : Request} (h : (program.serve request).2.Numberable) :
    (program.serve request).1.DenotedIn (program.serve request).2 := by
  cases request with
  | node node =>
    exact node?_addNode_self program node ((Addition.node node).begins.numberable h).nodes
  | list ids =>
    have hsize : (program.childCells ++ ids).size < UInt32.size := h.childCells
    exact children_addList_self program ids (size_appendList _ ids ▸ hsize)
  | inits inits =>
    have hsize : (program.initCells ++ inits).size < UInt32.size := h.initCells
    exact fieldInits_addInits_self program inits (size_appendList _ inits ▸ hsize)

theorem serve_between {request : Request} (h : (program.serve request).2.Numberable) :
    (program.serve request).1.Between program (program.serve request).2 := by
  cases request with
  | node node =>
    have hid : (UInt32.ofNat program.nodes.size).toNat = program.nodes.size :=
      UInt32.toNat_ofNat_of_lt' ((Addition.node node).begins.numberable h).nodes
    have hsize : (program.serve (.node node)).2.size = program.nodes.size + 1 :=
      Array.size_push node
    exact ⟨hid.ge, hsize ▸ Nat.lt_succ_of_le hid.le⟩
  | list ids => exact appendedSpan_between program.childCells ids h.childCells
  | inits inits => exact appendedSpan_between program.initCells inits h.initCells

/-! ### One addition after another -/

/-- Each request is answered, in its place. -/
theorem serveAll_requests (program : Program) (requests : List Request) :
    (program.serveAll requests).1.map Issue.request = requests := by
  induction requests generalizing program with
  | nil => rfl
  | cons request rest ih =>
    have hrequest : (program.serve request).1.request = request := by cases request <;> rfl
    rw [serveAll, List.map_cons, hrequest, ih]

theorem serveAll_between {requests : List Request} (h : (program.serveAll requests).2.Numberable) :
    ∀ issue ∈ (program.serveAll requests).1,
      issue.Between program (program.serveAll requests).2 := by
  induction requests generalizing program with
  | nil => exact fun issue hissue => absurd hissue List.not_mem_nil
  | cons request rest ih =>
    have hrest := serveAll_begins (program.serve request).2 rest
    refine List.forall_mem_cons.mpr ⟨?_, fun issue hissue => ?_⟩
    · exact (serve_between (hrest.numberable h)).mono (.refl program) hrest
    · exact (ih h issue hissue).mono (program.serve_addition request).begins (.refl _)

/-- An answer lies inside from its issue on, so it denotes the same after all that follows. -/
theorem serveAll_denotedIn {requests : List Request}
    (h : (program.serveAll requests).2.Numberable) :
    ∀ issue ∈ (program.serveAll requests).1, issue.DenotedIn (program.serveAll requests).2 := by
  induction requests generalizing program with
  | nil => exact fun issue hissue => absurd hissue List.not_mem_nil
  | cons request rest ih =>
    have hrest := serveAll_begins (program.serve request).2 rest
    have hserved := hrest.numberable h
    refine List.forall_mem_cons.mpr ⟨?_, fun issue hissue => ih h issue hissue⟩
    exact (serve_denotedIn hserved).begins (serve_between hserved) hrest

theorem serveAll_apart {requests : List Request} (h : (program.serveAll requests).2.Numberable) :
    (program.serveAll requests).1.Pairwise Issue.Apart := by
  induction requests generalizing program with
  | nil => exact .nil
  | cons request rest ih =>
    have hrest := serveAll_begins (program.serve request).2 rest
    refine List.pairwise_cons.mpr ⟨fun issue hissue => ?_, ih h⟩
    have hfinal : ((program.serve request).2.serveAll rest).2.Numberable := h
    exact (serve_between (hrest.numberable h)).apart (serveAll_between hfinal issue hissue)

end Program

open Program

/-- **What is issued stands.**  Whatever is added to a program, in any order, as long as the
storages can be numbered: each answer denotes what it was given for, at once and after all that
follows, and lies inside its storage.  Two answers never share a node or a cell.  A span of any two
words reads as its slice where it fits and as the empty list where it does not, in whatever program,
and its upper bound needs no more than 64 bits. -/
theorem issues_stand (program : Program) (requests later : List Request)
    (h : (program.serveAll (requests ++ later)).2.Numberable) :
    (program.serveAll requests).1.map Issue.request = requests ∧
    (∀ issue ∈ (program.serveAll requests).1,
      issue.DenotedIn (program.serveAll requests).2 ∧
      issue.DenotedIn (program.serveAll (requests ++ later)).2 ∧
      issue.Between program (program.serveAll (requests ++ later)).2) ∧
    (program.serveAll (requests ++ later)).1.Pairwise Issue.Apart ∧
    (∀ (current : Program) (span : Span NodeId),
      (span.start.toUInt64 + span.length.toUInt64).toNat = span.stop ∧
      current.children span = if span.stop ≤ current.childCells.size then
        (current.childCells.toList.drop span.start.toNat).take span.length.toNat else []) ∧
    ∀ (current : Program) (span : Span FieldInit),
      (span.start.toUInt64 + span.length.toUInt64).toNat = span.stop ∧
      current.fieldInits span = if span.stop ≤ current.initCells.size then
        (current.initCells.toList.drop span.start.toNat).take span.length.toNat else [] := by
  refine ⟨serveAll_requests program requests, fun issue hissue => ?_, serveAll_apart h,
    fun current span => ⟨span.toNat_stop, span.cells_eq_ite current.childCells⟩,
    fun current span => ⟨span.toNat_stop, span.cells_eq_ite current.initCells⟩⟩
  have hall := serveAll_append program requests later
  have hissue' : issue ∈ (program.serveAll (requests ++ later)).1 := by
    rw [hall]
    exact List.mem_append_left _ hissue
  have hbegins : (program.serveAll requests).2.Begins (program.serveAll (requests ++ later)).2 := by
    rw [hall]
    exact serveAll_begins _ later
  exact ⟨serveAll_denotedIn (hbegins.numberable h) issue hissue,
    serveAll_denotedIn h issue hissue', serveAll_between h issue hissue'⟩

/-- A number, a list that names it twice, an empty list, and the field of a record. -/
def firstRequests : List Request :=
  [.node (.int 1), .list [⟨0⟩, ⟨0⟩], .list [], .inits [⟨"n", ⟨0⟩⟩]]

/-- What is built from that, and more of each kind. -/
def laterRequests : List Request :=
  [.node (.arrayLiteral .int ⟨0⟩ ⟨0, 2⟩), .inits [], .list [⟨1⟩], .inits [⟨"s", ⟨1⟩⟩]]

/-- The program of all these requests. -/
def requestedProgram : Program :=
  (Program.empty.serveAll (firstRequests ++ laterRequests)).2

/-- The empty list is at cell 2, and so is the list that is added later. -/
theorem issues_stand_requestedProgram :
    requestedProgram.Numberable ∧
    requestedProgram.node? ⟨0⟩ = some (.int 1) ∧
    requestedProgram.children ⟨0, 2⟩ = [⟨0⟩, ⟨0⟩] ∧
    requestedProgram.children ⟨2, 0⟩ = [] ∧
    requestedProgram.fieldInits ⟨0, 1⟩ = [⟨"n", ⟨0⟩⟩] ∧
    Span.Apart (⟨0, 2⟩ : Span NodeId) ⟨2, 1⟩ ∧
    requestedProgram.children ⟨4294967295, 4294967295⟩ = [] := by
  have hsize : requestedProgram.Numberable := ⟨by decide, by decide, by decide⟩
  obtain ⟨-, hissues, hapart, hchildren, -⟩ :=
    issues_stand Program.empty firstRequests laterRequests hsize
  have hfirst : (Program.empty.serveAll firstRequests).1 =
      [.node ⟨0⟩ (.int 1), .list ⟨0, 2⟩ [⟨0⟩, ⟨0⟩], .list ⟨2, 0⟩ [],
        .inits ⟨0, 1⟩ [⟨"n", ⟨0⟩⟩]] := rfl
  rw [hfirst] at hissues
  refine ⟨hsize, (hissues (.node ⟨0⟩ (.int 1)) (by simp)).2.1,
    (hissues (.list ⟨0, 2⟩ [⟨0⟩, ⟨0⟩]) (by simp)).2.1, (hissues (.list ⟨2, 0⟩ []) (by simp)).2.1,
    (hissues (.inits ⟨0, 1⟩ [⟨"n", ⟨0⟩⟩]) (by simp)).2.1, ?_, ?_⟩
  · exact hapart.rel_get_of_lt (a := ⟨1, by decide⟩) (b := ⟨6, by decide⟩) (by decide)
  · rw [(hchildren _ _).2]
    rfl

end Arbor
