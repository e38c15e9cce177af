import RusAuthExample.FacadeCalls
import RusAuthExample.LateCommits

/-!
Store calls of the application as single steps. A method of the store looks its record
up at once, then reads the clock, and ends by writing back. As long as it writes back
while the record it has read is still the stored one, a run of its accesses is a run of
the application in which nothing happens during a call.
-/
namespace RusAuthExample
open Utf16Text OperationPrograms InterleavedRuns KeyedMemory LateCommits

variable {ς ι : Type}

/-- Nothing is left but to read the clock and to write a record of the transaction. -/
def WritesNext {B : Type} (id : Str) : Prog FineSig Exn B → Prop
  | .op (.inl (.inl (.put id' _))) next => id' = id ∧ ∀ a, ∃ r, next a = .ret r
  | .op (.inl (.inr ())) next => ∀ t, WritesNext id (next t)
  | _ => False

/-- One look at the dictionary at most, at the very beginning, and one write at most, of
    the same record, at the very end. -/
def LooksUpFirst {B : Type} : Prog FineSig Exn B → Prop
  | .op (.inl (.inl (.get id))) next => ∀ found, (∃ r, next found = .ret r) ∨ WritesNext id (next found)
  | .op (.inl (.inl (.put _ _))) _ => False
  | .op (.inl (.inr ())) next => (∀ t, ∃ r, next t = .ret r) ∨ ∃ id, ∀ t, WritesNext id (next t)
  | .op (.inr _) next => ∀ a, ∃ r, next a = .ret r
  | .ret _ => True
  | .raise _ => False

theorem accesses_look_first (e : AppSig.Op) : LooksUpFirst (withAccesses e) := by
  match e with
  | .inr e => exact fun a => ⟨a, rfl⟩
  | .inl (.start ⟨none, number⟩ request) => exact Or.inl fun t => ⟨_, rfl⟩
  | .inl (.start ⟨some id, number⟩ request) => exact Or.inr ⟨id, fun t => ⟨rfl, fun _ => ⟨_, rfl⟩⟩⟩
  | .inl (.get id) => exact fun found => Or.inl ⟨_, rfl⟩
  | .inl (.markCallbackReceived ⟨none, number⟩) => trivial
  | .inl (.markCallbackReceived ⟨some id, number⟩) =>
    intro found
    cases found with
    | none => exact Or.inl ⟨_, rfl⟩
    | some existing => exact Or.inr fun c t => ⟨rfl, fun _ => ⟨_, rfl⟩⟩
  | .inl (.markManualStatus id status) =>
    intro found
    cases found with
    | none => exact Or.inl ⟨_, rfl⟩
    | some existing =>
      cases status with
      | unhandled => exact Or.inr fun t => ⟨rfl, fun _ => ⟨_, rfl⟩⟩
      | _ => exact Or.inr fun c t => ⟨rfl, fun _ => ⟨_, rfl⟩⟩

section Paths
variable {B : Type} {seen : List (Performed FineSig)} {o : FineSig.Op}
  {k : FineSig.Answer o → Prog FineSig Exn B}

def LooksAt (id : Str) (o : Performed FineSig) : Prop :=
  (∃ found, o = ⟨.inl (.inl (.get id)), found⟩) ∨ ∃ t, o = ⟨.inl (.inr ()), t⟩

def Stores (o : FineSig.Op) : Prop := ∃ id flow, o = .inl (.inl (.put id flow))

theorem writes_next_path {id : Str} {p : Prog FineSig Exn B} (writes : WritesNext id p)
    (path : Prog.Path p seen (.op o k)) :
    (∀ o' ∈ seen, LooksAt id o') ∧
      ((¬ Stores o ∧ ∀ b r, k b ≠ .ret r) ∨
        (∃ flow, o = .inl (.inl (.put id flow))) ∧ ∀ b, ∃ r, k b = .ret r) := by
  induction p generalizing seen with
  | ret a => exact writes.elim
  | raise x => exact writes.elim
  | op e next ih =>
    rcases e with ((⟨id'⟩ | ⟨id', flow⟩) | ⟨⟩) | e
    · exact writes.elim
    · obtain ⟨rfl, ends⟩ := writes
      cases path with
      | nil => exact ⟨nofun, Or.inr ⟨⟨flow, rfl⟩, ends⟩⟩
      | @cons _ _ a _ _ rest =>
        obtain ⟨r, is⟩ := ends a
        rw [is] at rest
        cases rest
    · cases path with
      | nil =>
        refine ⟨nofun, Or.inl ⟨?_, fun b r is => ?_⟩⟩
        · rintro ⟨_, _, ⟨⟩⟩
        · have later := writes b
          rw [is] at later
          exact later
      | @cons _ _ a _ _ rest =>
        obtain ⟨looks, last⟩ := ih a (writes a) rest
        refine ⟨fun o' member => ?_, last⟩
        rcases List.mem_cons.mp member with rfl | later
        · exact Or.inr ⟨a, rfl⟩
        · exact looks o' later
    · exact writes.elim

/-- Before the last step of a call nothing is written, and what was read belongs to the
    record that the last step writes. -/
theorem looks_first_path {p : Prog FineSig Exn B} (looks : LooksUpFirst p)
    (path : Prog.Path p seen (.op o k)) :
    (¬ Stores o ∧ (seen = [] ∨ ∀ b r, k b ≠ .ret r)) ∨
      ∃ id flow, o = .inl (.inl (.put id flow)) ∧ (∀ o' ∈ seen, LooksAt id o') ∧
        ∀ b, ∃ r, k b = .ret r := by
  have written : ∀ {id seen} {q : Prog FineSig Exn B}, WritesNext id q → Prog.Path q seen (.op o k) →
      ∀ first, LooksAt id first → (¬ Stores o ∧ (first :: seen = [] ∨ ∀ b r, k b ≠ .ret r)) ∨
        ∃ id flow, o = .inl (.inl (.put id flow)) ∧ (∀ o' ∈ first :: seen, LooksAt id o') ∧
          ∀ b, ∃ r, k b = .ret r := by
    intro id seen q writes rest first looked
    obtain ⟨each, ⟨quiet, goes⟩ | ⟨⟨flow, is⟩, ends⟩⟩ := writes_next_path writes rest
    · exact Or.inl ⟨quiet, Or.inr goes⟩
    · refine Or.inr ⟨id, flow, is, fun o' member => ?_, ends⟩
      rcases List.mem_cons.mp member with rfl | later
      · exact looked
      · exact each o' later
  cases path with
  | nil =>
    refine Or.inl ⟨?_, Or.inl rfl⟩
    rintro ⟨id, flow, rfl⟩
    exact looks
  | @cons e next a ops _ rest =>
    rcases e with ((⟨id⟩ | ⟨id, flow⟩) | ⟨⟩) | e
    · rcases looks a with ⟨r, is⟩ | writes
      · rw [is] at rest
        cases rest
      · exact written writes rest _ (Or.inl ⟨a, rfl⟩)
    · exact looks.elim
    · rcases looks with ends | ⟨id, writes⟩
      · obtain ⟨r, is⟩ := ends a
        rw [is] at rest
        cases rest
      · exact written (writes a) rest _ (Or.inr ⟨a, rfl⟩)
    · obtain ⟨r, is⟩ := looks a
      rw [is] at rest
      cases rest

end Paths

section Calls
variable {rusAuth : Semantics rusAuthSig ς}

theorem not_stored {s s' : App ς} {o : (StoreSig.sum (rusAuthSig.sum hostSig)).Op} {b : FineSig.Answer o}
    (did : fineEffect rusAuth s o b s') (quiet : ¬ Stores o) (inStore : ∃ e, o = .inl e) : s' = s := by
  obtain ⟨e, rfl⟩ := inStore
  obtain ⟨did, outer⟩ := did
  rcases e with (⟨id⟩ | ⟨id, flow⟩) | ⟨⟩
  · exact Prod.ext (effect_get did).2 outer
  · exact absurd ⟨id, flow, rfl⟩ quiet
  · exact Prod.ext did outer

theorem attempt_ended {A : Type} {p : StoreM A} {r : Except Exn A}
    (ended : (p.attempt.onLeft : Prog FineSig Exn (Except Exn A)) = .ret r) (clock : Nat → DateTime)
    (journal : Journal) : (p.feed clock).exec answer journal = (r, journal) := by
  cases p with
  | ret a => cases ended; rfl
  | raise x => cases ended; rfl
  | op e next => cases ended

/-- Were the accesses before the last one made again now, the call would run through at
    once and end as it does. -/
theorem path_alone {A : Type} {p : StoreM A} {seen : List (Performed FineSig)} {o : FineSig.Op}
    {k : FineSig.Answer o → Prog FineSig Exn (Except Exn A)}
    (path : Prog.Path p.attempt.onLeft seen (.op o k)) {s s' : App ς}
    (again : Repeatable (fineEffect rusAuth) s seen) {b : FineSig.Answer o}
    (did : fineEffect rusAuth s o b s') {r : Except Exn A} (ended : k b = .ret r) :
    (∃ clock, (p.feed clock).exec answer s.1 = (r, s'.1)) ∧ s'.2 = s.2 := by
  induction p generalizing seen with
  | ret a => cases path
  | raise x => cases path
  | op e next ih =>
    cases path with
    | nil =>
      obtain ⟨did, outer⟩ := did
      refine ⟨?_, outer⟩
      rcases e with access | ⟨⟩
      · refine ⟨fun _ => 0, ?_⟩
        have answered : answer access s.1 = (b, s'.1) := did
        show ((next (answer access s.1).1).feed _).exec answer (answer access s.1).2 = _
        rw [answered]
        exact attempt_ended ended _ _
      · refine ⟨fun _ => b, ?_⟩
        rw [show s'.1 = s.1 from did]
        exact attempt_ended ended _ _
    | @cons _ _ a ops _ rest =>
      obtain ⟨⟨clock, ran⟩, outer⟩ :=
        ih a rest fun o member => again o (List.mem_cons_of_mem _ member)
      refine ⟨?_, outer⟩
      obtain ⟨first, _⟩ := again _ List.mem_cons_self
      rcases e with access | ⟨⟩
      · refine ⟨clock, ?_⟩
        have answered : answer access s.1 = (a, s.1) := first
        show ((next (answer access s.1).1).feed _).exec answer (answer access s.1).2 = _
        rw [answered]
        exact ran
      · exact ⟨fun n => match n with | 0 => a | n + 1 => clock n, ran⟩

theorem single_path {e : (rusAuthSig.sum hostSig).Op} {seen : List (Performed FineSig)} {o : FineSig.Op}
    {k : FineSig.Answer o → Prog FineSig Exn (AppSig.Answer (.inr e))}
    (path : Prog.Path (withAccesses (.inr e)) seen (.op o k)) :
    seen = [] ∧ (Prog.op o k : Prog FineSig Exn (AppSig.Answer (.inr e))) = .op (.inr e) .ret := by
  cases path with
  | nil => exact ⟨rfl, rfl⟩
  | cons rest => cases rest

theorem call_in_store {call : StoreCall} {seen : List (Performed FineSig)} {o : FineSig.Op}
    {k : FineSig.Answer o → Prog FineSig Exn (AppSig.Answer (.inl call))}
    (path : Prog.Path (withAccesses (.inl call)) seen (.op o k)) (b : FineSig.Answer o) :
    ∃ e, o = .inl e := by
  have uses : (withAccesses (.inl call)).Uses fun o : FineSig.Op => ∃ e, o = .inl e :=
    Prog.uses_on_left _ fun e => ⟨e, rfl⟩
  exact Prog.path_uses uses (Prog.path_snoc path rfl b) ⟨o, b⟩ (by simp)

theorem accesses_carry_out (rusAuth : Semantics rusAuthSig ς) :
    CarriesOut (fineEffect rusAuth) (appEffect rusAuth) withAccesses where
  total := with_accesses_total
  nothing := by
    intro e a s ended
    cases e with
    | inr e => cases ended
    | inl call => exact ⟨⟨fun _ => 0, attempt_ended ended _ s.1⟩, rfl⟩
  early := by
    intro e seen o next b s s' path did goes
    cases e with
    | inr e =>
      obtain ⟨_, same⟩ := single_path path
      cases same
      exact absurd rfl (goes b)
    | inl call =>
      rcases looks_first_path (accesses_look_first _) path with ⟨quiet, _⟩ | ⟨_, _, _, _, ends⟩
      · exact not_stored did quiet (call_in_store path b)
      · obtain ⟨r, is⟩ := ends b
        exact absurd is (goes r)
  last := by
    intro e seen o next b a s s' path again did ended
    cases e with
    | inr e =>
      obtain ⟨_, same⟩ := single_path path
      cases same
      cases ended
      exact did
    | inl call => exact path_alone (p := call.program) path again did ended

theorem accesses_show_last : ShowsLast withAccesses (outer (S := StoreSig)) (outer (S := callSig)) where
  nothing := by
    intro e a ended
    cases e with
    | inr e => cases ended
    | inl call => rfl
  early := by
    intro e seen o next b path goes
    cases e with
    | inr e =>
      obtain ⟨_, same⟩ := single_path path
      cases same
      exact absurd rfl (goes b)
    | inl call =>
      obtain ⟨e, rfl⟩ := call_in_store path b
      rfl
  last := by
    intro e seen o next b a path ended
    cases e with
    | inr e =>
      obtain ⟨_, same⟩ := single_path path
      cases same
      cases ended
      rfl
    | inl call =>
      obtain ⟨e, rfl⟩ := call_in_store path b
      rfl

def StillStored (journal : Journal) (id : Str) : Performed FineSig → Prop
  | ⟨.inl (.inl (.get id')), (found : Option ExampleConfirmationFlow)⟩ =>
    id' = id → journal.lookup id = found
  | _ => True

instance (journal : Journal) (id : Str) :
    (o : Performed FineSig) → Decidable (StillStored journal id o)
  | ⟨.inl (.inl (.get id')), (found : Option ExampleConfirmationFlow)⟩ =>
    inferInstanceAs (Decidable (id' = id → journal.lookup id = found))
  | ⟨.inl (.inl (.put _ _)), _⟩ => .isTrue trivial
  | ⟨.inl (.inr _), _⟩ => .isTrue trivial
  | ⟨.inr _, _⟩ => .isTrue trivial

/-- A record is written back while the one that the task has read is still stored. -/
def WritesCurrent [DecidableEq ι] {A : Type} (tr : OuterTrace StoreSig ι)
    (m : Pool FineSig Exn A (App ς) ι) : Label FineSig ι → Prop
  | (i, ⟨.inl (.inl (.put id _)), _⟩) => ∀ o ∈ own i tr, StillStored m.shared.1 id o
  | _ => True

instance [DecidableEq ι] {A : Type} (tr : OuterTrace StoreSig ι) (m : Pool FineSig Exn A (App ς) ι) :
    (l : Label FineSig ι) → Decidable (WritesCurrent tr m l)
  | (i, ⟨.inl (.inl (.put id _)), _⟩) =>
    inferInstanceAs (Decidable (∀ o ∈ own i tr, StillStored m.shared.1 id o))
  | (_, ⟨.inl (.inl (.get _)), _⟩) => .isTrue trivial
  | (_, ⟨.inl (.inr _), _⟩) => .isTrue trivial
  | (_, ⟨.inr _, _⟩) => .isTrue trivial

theorem writes_current_keeps [DecidableEq ι] {A : Type} :
    KeepsFresh (X := Exn) (A := A) (ι := ι) (fineEffect rusAuth) withAccesses WritesCurrent := by
  intro tr m i o b before seen e k meets did path ends
  rcases looks_first_path (accesses_look_first e) path with ⟨_, rfl | goes⟩ | ⟨id, flow, rfl, looks, _⟩
  · exact nofun
  · obtain ⟨r, is⟩ := ends
    exact absurd is (goes b r)
  · intro o member
    have mine : o ∈ own i tr := by
      rw [did]
      exact List.mem_append_right before member
    rcases looks o member with ⟨found, rfl⟩ | ⟨t, rfl⟩
    · have stored : m.shared.1.lookup id = found := meets _ mine rfl
      exact ⟨by rw [← stored]; rfl, rfl⟩
    · exact ⟨rfl, rfl⟩

end Calls

/-- The tasks over a store whose calls are single steps. -/
def callPool (site : Site) (tasks : ι → FacadeTask) (s : App ς) :
    Pool AppSig Exn (Option ExampleConfirmationFlow) (App ς) ι :=
  ⟨s, fun i => (tasks i).program site⟩

/-- In every run in which no call writes back a copy that is out of date, the calls
    might as well be single steps: there is such a run of the same tasks that ends in
    the same state, in which RusAuth and the host do the same in the same order, and in
    which each task stands where it stands or before the call that it is within. -/
theorem current_runs_are_atomic [DecidableEq ι] {rusAuth : Semantics rusAuthSig ς} {site : Site}
    {tasks : ι → FacadeTask} {s : App ς} {tr : OuterTrace StoreSig ι} {q : FacadePool ς ι}
    (run : Guided (fun _ => fineEffect rusAuth) WritesCurrent (facadePool site tasks s) tr q) :
    ∃ (tr' : AppTrace ι) (q' : Pool AppSig Exn (Option ExampleConfirmationFlow) (App ς) ι),
      Exec (fun _ => appEffect rusAuth) (callPool site tasks s) tr' q' ∧
      q'.shared = q.shared ∧ shown outer tr' = shown outer tr ∧
      ∀ i, Abreast withAccesses (own i tr) (q'.task i) (q.task i) := by
  obtain ⟨tr', q', run', same, tracks⟩ := guided_is_atomic (q := callPool site tasks s)
    (accesses_carry_out rusAuth) accesses_show_last writes_current_keeps run
  exact ⟨tr', q', run', tracks.shared, same, tracks.task⟩

/- A callback is being recorded while the start still tracks its transaction; the check
   begins before the callback has been recorded and reads its record afterwards. -/
namespace OverlappingCalls

inductive Party where
  | starting
  | calling
  | checking
  deriving DecidableEq

def tasks : Party → FacadeTask
  | .starting => .start 0 (lit "79001234567") [] 10
  | .calling => .app (.callback (Sample.callback (lit "79001234567")))
  | .checking => .check 0 (lit "79001234567")

def serving : Semantics rusAuthSig Unit := Sample.behaves Sample.confirming

def start : FacadePool Unit Party := facadePool Sample.site tasks (∅, (), .initial)

def schedule : List Party :=
  [.starting, .starting, .starting, .starting, .calling, .calling, .calling, .starting, .calling,
    .checking, .checking, .starting, .calling, .checking, .calling, .calling, .checking, .checking,
    .checking, .checking, .checking]

def overlapping : OuterTrace StoreSig Party × FacadePool Unit Party :=
  replay (Sample.answering Sample.confirming) start schedule

theorem overlapping_run : Guided (fun _ => fineEffect serving) WritesCurrent start overlapping.1
    overlapping.2 :=
  replay_guided (fun _ => Sample.answering_behaves _) .nil schedule (by decide)

end OverlappingCalls

theorem overlapping_calls_atomic :
    ∃ (tr' : AppTrace OverlappingCalls.Party) (q' : Pool AppSig Exn (Option ExampleConfirmationFlow)
        (App Unit) OverlappingCalls.Party),
      Exec (fun _ => appEffect OverlappingCalls.serving)
        (callPool Sample.site OverlappingCalls.tasks (∅, (), .initial)) tr' q' ∧
      q'.shared = OverlappingCalls.overlapping.2.shared ∧
      shown outer tr' = shown outer OverlappingCalls.overlapping.1 ∧
      ∀ i, Abreast withAccesses (own i OverlappingCalls.overlapping.1) (q'.task i)
        (OverlappingCalls.overlapping.2.task i) :=
  current_runs_are_atomic OverlappingCalls.overlapping_run

end RusAuthExample
