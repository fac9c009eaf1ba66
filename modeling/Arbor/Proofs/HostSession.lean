import Arbor.Proofs.Marks
import Arbor.Session

/-!
# What a host can do to a session

A host sets a session up step by step, and then calls functions, stores globals
and removes them, in any order.  The values it passes are built by the
constructors it has (`HostValue`); it may mark them as it likes, also inside
lists and records.

Every way of handing a value over strips its marks, so the globals of a session
are clean from the first step on, whatever the program does.

* `HostValue.everywhere_cleaned` — a value of the host is clean up to the marks
  it carries itself;
* `Session.Reachable.globals_clean` — no sequence of steps gets a mark into the
  globals;
* `marks_confined` — the same for evaluation in any clean context, with the
  origins of the marks that a node yields.
-/

namespace Arbor

/-- A value that a host can build. -/
inductive HostValue : Marked → Prop where
  | int (n : Int64) : HostValue (.plain (.int n))
  | string (s : String) : HostValue (.plain (.string s))
  | bool (b : Bool) : HostValue (.plain (.bool b))
  | undefined : HostValue .undefined
  | unresolved : HostValue .miss
  | function (signature : Signature) : HostValue (.plain (.function signature))
  | list (elem : Ty) (length : NodeId) {items : List Marked}
    (hitems : ∀ item ∈ items, HostValue item) : HostValue (.list elem length items)
  | record (shape : Entries Ty) {fields : Entries Marked}
    (hfields : ∀ field ∈ fields, HostValue field.2) : HostValue (.record shape fields)
  | asReturn {m : Marked} (hm : HostValue m) : HostValue m.asReturn
  | cleaned {m : Marked} (hm : HostValue m) : HostValue m.cleaned

/-- Whatever the host nests in a value is stripped of its marks on the way. -/
theorem HostValue.everywhere_cleaned {m : Marked} (h : HostValue m) :
    m.cleaned.Everywhere fun m => m.isClean = true := by
  induction h with
  | int n => exact Marked.everywhere_of_parts_eq_nil rfl rfl
  | string s => exact Marked.everywhere_of_parts_eq_nil rfl rfl
  | bool b => exact Marked.everywhere_of_parts_eq_nil rfl rfl
  | undefined => exact Marked.everywhere_of_parts_eq_nil rfl rfl
  | unresolved => exact Marked.everywhere_of_parts_eq_nil rfl rfl
  | function signature => exact Marked.everywhere_of_parts_eq_nil rfl rfl
  | list elem length _ ih => exact Marked.everywhere_list rfl ih
  | record shape _ ih => exact Marked.everywhere_record rfl ih
  | asReturn _ ih => exact ih
  | cleaned _ ih => exact ih

/-- The sessions that a host can set up over a program. -/
inductive Session.Built (program : Program) : Session → Prop where
  | start : Built program (.ofProgram program)
  | function {session : Session} (h : Built program session) (name : String)
    (signature : Signature) : Built program (session.declareFunction name signature)
  | declaration {session : Session} (h : Built program session) (name : String) (ty : Ty) :
    Built program (session.declare name ty)
  | global {session : Session} (h : Built program session) (name : String) {m : Marked}
    (hm : HostValue m) : Built program (session.bind name m)
  | globalDefault {session session' : Session} (h : Built program session) {fuel : Nat}
    {name : String} {ty : Ty}
    (hdefault : (session.bindDefault fuel name ty).run = some (.ok session')) :
    Built program session'
  | limit {session : Session} (h : Built program session) (n : Nat) :
    Built program (session.limitCalls n)

/-- The sessions that a host can reach from one it set up. -/
inductive Session.Reachable (program : Program) : Session → Prop where
  | built {session : Session} (h : Session.Built program session) : Reachable program session
  | call {session session' : Session} (h : Reachable program session) {fuel : Nat}
    {name : String} {args : Entries Marked} {outcome : Except CallError Marked}
    (hargs : ∀ arg ∈ args, HostValue arg.2)
    (hcall : session.call fuel name args = some (outcome, session')) : Reachable program session'
  | save {session : Session} (h : Reachable program session) (name : String) {m : Marked}
    (hm : HostValue m) : Reachable program (session.bind name m)
  | remove {session : Session} (h : Reachable program session) (name : String) :
    Reachable program (session.unbind name)

/-- The value that a call by the host hands back, with its faults or without. -/
def CallError.valueOf : Except CallError Marked → Marked
  | .ok m => m
  | .error error => error.result

namespace Session

theorem declareFunction_globals_clean {session : Session} (h : session.globals.Clean)
    (name : String) (signature : Signature) :
    (session.declareFunction name signature).globals.Clean :=
  h.save (HostValue.function signature).everywhere_cleaned name

theorem Built.globals_clean {program : Program} {session : Session}
    (h : Built program session) : session.globals.Clean := by
  induction h with
  | start => exact Namespace.everywhere_empty
  | function _ name signature ih => exact declareFunction_globals_clean ih name signature
  | @declaration session _ name ty ih =>
    unfold declare
    split
    · exact declareFunction_globals_clean ih name _
    · exact ih
  | global _ name hm ih => exact ih.save hm.everywhere_cleaned name
  | @globalDefault session session' _ fuel name ty hdefault ih =>
    obtain ⟨zero, hzero, hbind⟩ := Sizing.bind_eq_ok_iff.mp hdefault
    cases hbind
    have hclean := hereditary_isClean session.program
    exact ih.save (hclean.everywhere_cleaned (defaultValue_everywhere hclean hzero)) name
  | limit _ n ih => exact ih

theorem result_of_function_eq_error {session : Session} {name : String} {error : CallError}
    (h : session.function name = .error error) : error.result = .undefined := by
  unfold function at h
  split at h
  · cases h
    rfl
  · split at h
    · cases h
      rfl
    · cases h

/-- A call over clean globals leaves them clean and hands back a clean value. -/
theorem call_clean {session session' : Session} {fuel : Nat} {name : String}
    {args : Entries Marked} {outcome : Except CallError Marked} (h : session.globals.Clean)
    (hargs : ∀ arg ∈ args, HostValue arg.2)
    (hcall : session.call fuel name args = some (outcome, session')) :
    session'.globals.Clean ∧
      (CallError.valueOf outcome).Everywhere fun m => m.isClean = true := by
  unfold call at hcall
  split at hcall
  · next error herror =>
    cases hcall
    rw [CallError.valueOf, result_of_function_eq_error herror]
    exact ⟨h, Marked.everywhere_of_parts_eq_nil rfl rfl⟩
  · next signature _ =>
    obtain ⟨⟨m, state⟩, hrun, hdone⟩ := Option.bind_eq_some_iff.mp hcall
    have hlocals := Namespace.everywhere_ofPairs fun arg harg =>
      (hargs arg harg).everywhere_cleaned
    have hreached := eval_everywhere (hereditary_isClean session.program) fuel _ _ _
      ⟨hlocals, h⟩ m state hrun
    cases hdone
    refine ⟨hreached.2.globals, ?_⟩
    split <;> exact hreached.1

theorem Reachable.globals_clean {program : Program} {session : Session}
    (h : Reachable program session) : session.globals.Clean := by
  induction h with
  | built h => exact h.globals_clean
  | call _ hargs hcall ih => exact (call_clean ih hargs hcall).1
  | save _ name hm ih => exact ih.save hm.everywhere_cleaned name
  | remove _ name ih => exact ih.erase name

end Session

/-- What evaluation over clean variables does with marks. -/
structure MarksConfined (program : Program) (frame : Frame) (id : NodeId) (state : State)
    (m : Marked) (final : State) : Prop extends
    MarksExplained program frame id state m final where
  locals : final.locals.Clean
  globals : final.globals.Clean
  nested : ∀ part ∈ m.value.parts, part.Everywhere fun m => m.isClean = true

/-- **Marks are confined.**  Over clean variables, evaluation leaves clean variables, nests no
mark in what it yields, and marks it only for one of the known reasons.  Whatever a host does to
a session, the globals are clean, and so is what a call hands back. -/
theorem marks_confined (program : Program) :
    (∀ {frame : Frame} {id : NodeId} {state final : State} {m : Marked},
      state.locals.Clean → state.globals.Clean → Evaluates program frame id state m final →
        MarksConfined program frame id state m final) ∧
    ∀ {session : Session}, Session.Reachable program session →
      session.globals.Clean ∧
      ∀ {fuel : Nat} {name : String} {args : Entries Marked} {outcome : Except CallError Marked}
        {session' : Session}, (∀ arg ∈ args, HostValue arg.2) →
        session.call fuel name args = some (outcome, session') →
          session'.globals.Clean ∧
          (CallError.valueOf outcome).Everywhere fun m => m.isClean = true := by
  refine ⟨fun hlocals hglobals heval => ?_, fun hreachable => ?_⟩
  · obtain ⟨fuel, heval⟩ := heval
    have hreached := eval_everywhere (hereditary_isClean program) fuel _ _ _
      ⟨hlocals, hglobals⟩ _ _ heval
    exact ⟨eval_marks ⟨hlocals, hglobals⟩ heval, hreached.2.locals, hreached.2.globals,
      fun part hpart => hreached.1.part hpart⟩
  · exact ⟨hreachable.globals_clean, fun hargs hcall =>
      Session.call_clean hreachable.globals_clean hargs hcall⟩

/-- A block that hands up what the branch of a conditional returns. -/
def returningProgram : Program where
  nodes := #[.bool true, .int 7, .ret ⟨1⟩, .cond none ⟨0⟩ ⟨2⟩ none, .block ⟨0, 1⟩]
  childCells := #[⟨3⟩]

theorem marks_confined_returningProgram :
    (∃ m final, Evaluates returningProgram {} ⟨4⟩ {} m final ∧ m.returned = true ∧
      MarksConfined returningProgram {} ⟨4⟩ {} m final) ∧
    ∃ m session', ((Session.ofProgram returningProgram).declareFunction "seven"
        ⟨[], .int, ⟨4⟩⟩).call 5 "seven" [("extra", .miss)] = some (.ok m, session') ∧
      session'.globals.Clean := by
  refine ⟨⟨_, _, ⟨5, rfl⟩, rfl, ?_⟩, ?_⟩
  · exact (marks_confined returningProgram).1 Namespace.everywhere_empty
      Namespace.everywhere_empty ⟨5, rfl⟩
  · have hbuilt : Session.Built returningProgram ((Session.ofProgram
        returningProgram).declareFunction "seven" ⟨[], .int, ⟨4⟩⟩) := .function .start _ _
    have hargs : ∀ arg ∈ [("extra", Marked.miss)], HostValue arg.2 :=
      List.forall_mem_singleton.mpr .unresolved
    obtain ⟨m, session', hcall⟩ : ∃ m session', ((Session.ofProgram
        returningProgram).declareFunction "seven" ⟨[], .int, ⟨4⟩⟩).call 5 "seven"
        [("extra", .miss)] = some (.ok m, session') := ⟨_, _, rfl⟩
    have hconfined := (marks_confined returningProgram).2 (.built hbuilt)
    exact ⟨m, session', hcall, (hconfined.2 hargs hcall).1⟩

end Arbor
