import RusAuthExample.ReportedSuccess

/-!
Whose transaction it is. RusAuth names a transaction once, in the answer to a start
of one session. Only that session tracks it, asks RusAuth about it, looks its record
up or writes it; the callback endpoint, which belongs to no session, is the one
other writer.
-/
namespace RusAuthExample
open Utf16Text OperationPrograms InterleavedRuns KeyedMemory

variable {ς ι : Type}

def Concerns : FineSig.Op → Str → Prop
  | .inl (.inl (.get key)), id => key = id
  | .inl (.inl (.put key _)), id => key = id
  | .inr (.inl (.checkConfirmation request)), id => request.transactionId = id
  | .inr (.inr (.assign _ (.currentTransactionId transactionId))), id => transactionId = id
  | _, _ => False

structure TracksOwn (circuit : ι → Option SessionId) (s : App ς) (tr : OuterTrace StoreSig ι) :
    Prop where
  current : ∀ session id, (s.2.2.sessions session).currentTransactionId = some id →
    Owned circuit tr session id
  read : ∀ i session id, (i, ⟨.inr (.inr (.currentTransactionId session)), some id⟩) ∈ tr →
    Owned circuit tr session id

section Steps
variable [DecidableEq ι] {rusAuth : Semantics rusAuthSig ς} {circuit : ι → Option SessionId}
  {s s' : App ς} {tr : OuterTrace StoreSig ι} {i : ι} {e : FineSig.Op} {a : FineSig.Answer e}

theorem tracks_own_step (tracks : TracksOwn circuit s tr)
    (accounted : Accounted (circuit i) (own i tr) e) (did : fineEffect rusAuth s e a s') :
    TracksOwn circuit s' (tr ++ [(i, ⟨e, a⟩)]) := by
  have later : tr <+: tr ++ [(i, ⟨e, a⟩)] := List.prefix_append _ _
  constructor
  case current =>
    intro session id tracked
    refine owned_later later ?_
    rcases tracked_step did tracked with before | rfl
    · exact tracks.current session id before
    · obtain ⟨inCircuit, replied, _⟩ := accounted
      exact owned_of_reply inCircuit replied
  case read =>
    intro j session id member
    refine owned_later later ?_
    rcases List.mem_append.mp member with old | new
    · exact tracks.read j session id old
    · cases List.mem_singleton.mp new
      exact tracks.current session id (current_read did)

theorem concerns_own (tracks : TracksOwn circuit s tr) {session : SessionId}
    (inCircuit : circuit i = some session) (accounted : Accounted (circuit i) (own i tr) e)
    {id : Str} (concerns : Concerns e id) : Owned circuit tr session id := by
  have read : TrackedBy (own i tr) session id → Owned circuit tr session id :=
    fun tracked => tracks.read i session id (mem_own.mp tracked)
  match e with
  | .inl (.inl (.get key)) =>
    cases concerns
    exact read (accounted session inCircuit)
  | .inl (.inl (.put key flow)) =>
    cases concerns
    rcases accounted with ⟨_, replied, _⟩ | ⟨_, _, _, evidence⟩
    · exact owned_of_reply inCircuit replied
    · rw [inCircuit] at evidence
      exact read evidence.1
  | .inr (.inl (.checkConfirmation request)) =>
    cases concerns
    obtain ⟨_, session', inCircuit', tracked⟩ := accounted
    cases inCircuit.symm.trans inCircuit'
    exact read tracked
  | .inr (.inr (.assign session' (.currentTransactionId transactionId))) =>
    cases concerns
    exact owned_of_reply inCircuit accounted.2.1

end Steps

section Runs
variable [DecidableEq ι] {rusAuth : Semantics rusAuthSig ς} {issued : ς → Str → Prop} {site : Site}
  {tasks : ι → FacadeTask} {journal : Journal} {service : ς} {circuits : Circuits}
  {tr : OuterTrace StoreSig ι} {q : FacadePool ς ι}

theorem tracks_own_run
    (run : Exec (fun _ => fineEffect rusAuth) (facadePool site tasks (journal, service, circuits)) tr
      q)
    (untracked : ∀ session, (circuits.sessions session).currentTransactionId = none) :
    TracksOwn (fun i => (tasks i).circuit) q.shared tr := by
  refine exec_invariant (fun i => Prog.obeys_of_follows (task_accounted site (tasks i))) ?_ ?_ run
  · refine ⟨fun session id tracked => ?_, nofun⟩
    cases (untracked session).symm.trans tracked
  · intro s tr i e a s' tracks accounted did
    exact tracks_own_step tracks accounted did

def OwnedAlone (tasks : ι → FacadeTask) (tr : OuterTrace StoreSig ι) (session : SessionId)
    (id : Str) : Prop :=
  Owned (fun i => (tasks i).circuit) tr session id ∧
    ∀ session', Owned (fun i => (tasks i).circuit) tr session' id → session' = session

theorem owned_alone (ids : IssuesOnce rusAuth issued)
    (run : Exec (fun _ => fineEffect rusAuth) (facadePool site tasks (journal, service, circuits)) tr
      q) {session : SessionId} {id : Str}
    (owned : Owned (fun i => (tasks i).circuit) tr session id) : OwnedAlone tasks tr session id :=
  ⟨owned, fun _ owned' => owned_unique (id_history ids run) owned' owned⟩

/-- In every run each session keeps to its own transactions: what it tracks, and what
    any task of its circuit looks up, writes, asks RusAuth about or lets it track. -/
theorem sessions_keep_apart (ids : IssuesOnce rusAuth issued)
    (run : Exec (fun _ => fineEffect rusAuth) (facadePool site tasks (journal, service, circuits)) tr
      q)
    (untracked : ∀ session, (circuits.sessions session).currentTransactionId = none)
    (session : SessionId) (id : Str) :
    ((q.shared.2.2.sessions session).currentTransactionId = some id →
      OwnedAlone tasks tr session id) ∧
    ∀ i e a, (tasks i).circuit = some session → (i, ⟨e, a⟩) ∈ tr → Concerns e id →
      OwnedAlone tasks tr session id := by
  refine ⟨fun tracked => owned_alone ids run ((tracks_own_run run untracked).current session id
    tracked), fun i e a inCircuit performed concerns => owned_alone ids run ?_⟩
  obtain ⟨xs, ys, rfl⟩ := List.append_of_mem performed
  obtain ⟨m, m', before, step, _⟩ := exec_at run
  have accounted : Accounted (tasks i).circuit (own i xs) e :=
    exec_obeys before step (Prog.obeys_of_follows (task_accounted site (tasks i)))
  exact owned_later (List.prefix_append _ _)
    (concerns_own (tracks_own_run before untracked) inCircuit accounted concerns)

end Runs

theorem second_start_keeps_apart :
    OwnedAlone SecondStart.tasks SecondStart.stale.1 0 (SecondStart.transaction 1) :=
  (sessions_keep_apart SecondStart.issues_once (guided_exec SecondStart.stale_run) (fun _ => rfl) 0
    (SecondStart.transaction 1)).1 (by decide)

end RusAuthExample
