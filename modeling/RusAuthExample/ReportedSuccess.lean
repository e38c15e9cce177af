import Mathlib.Data.Fintype.OfMap
import RusAuthExample.TrackedTransactions

/-!
When the page reports success. A check names the transaction its session tracked
before the call; its answer is applied to whatever the session tracks by then.
-/
namespace RusAuthExample
open Utf16Text OperationPrograms InterleavedRuns KeyedMemory

variable {ς ι : Type}

/-- A start of the circuit got the id from RusAuth. -/
def Owned (circuit : ι → Option SessionId) (tr : OuterTrace StoreSig ι) (session : SessionId)
    (id : Str) : Prop := ∃ i request, circuit i = some session ∧ Answered tr i id request

def StoredSuccess (journal : Journal) (id : Str) : Prop :=
  ∃ flow ∈ journal.lookup id, flow.status = .success

/-- The session tracks the transaction or another one that has succeeded, and not
    under a blank id. -/
def Confirms (journal : Journal) (session : ExampleAuthSession) (id : Str) : Prop :=
  ∃ current ∈ session.currentTransactionId, isBlank current = false ∧
    (current = id ∨ StoredSuccess journal current)

instance (journal : Journal) (id : Str) : Decidable (StoredSuccess journal id) :=
  inferInstanceAs (Decidable (∃ flow ∈ journal.lookup id, _))

instance (journal : Journal) (session : ExampleAuthSession) (id : Str) :
    Decidable (Confirms journal session id) :=
  inferInstanceAs (Decidable (∃ current ∈ session.currentTransactionId, _))

/-- What lies behind a message of success, while the calls are on their way. -/
structure Reports [DecidableEq ι] (circuit : ι → Option SessionId) (q : FacadePool ς ι)
    (tr : OuterTrace StoreSig ι) : Prop where
  current : ∀ session id, (q.shared.2.2.sessions session).currentTransactionId = some id →
    Owned circuit tr session id
  read : ∀ i session id, (i, ⟨.inr (.inr (.currentTransactionId session)), some id⟩) ∈ tr →
    Owned circuit tr session id
  wrote : ∀ i session id flow, circuit i = some session →
    (progress (own i tr)).written = some (id, flow) →
    Owned circuit tr session id ∧ (flow.status = .success → StoredSuccess q.shared.1 id)
  applied : ∀ i session id, circuit i = some session →
    (progress (own i tr)).applied = some (id, .success) → ¬ AtRest (own i tr) (q.task i) →
    Confirms q.shared.1 (q.shared.2.2.sessions session) id
  told : ∀ session,
    (q.shared.2.2.sessions session).infoMessage = some (statusMessage .success) →
    (∃ id, (q.shared.2.2.sessions session).currentTransactionId = some id ∧ isBlank id = false ∧
      StoredSuccess q.shared.1 id) ∨
    ∃ i, circuit i = some session ∧ ¬ Announced (own i tr)

section Ownership
variable {circuit : ι → Option SessionId} {tr tr' : OuterTrace StoreSig ι} {session : SessionId}
  {id : Str}

theorem owned_later (later : tr <+: tr') (owned : Owned circuit tr session id) :
    Owned circuit tr' session id := by
  obtain ⟨i, request, inCircuit, answered⟩ := owned
  exact ⟨i, request, inCircuit, answered_later later answered⟩

/-- RusAuth returns an id once, so it belongs to one session. -/
theorem owned_unique {issued : ς → Str → Prop} {service : ς} (history : IdHistory issued service tr)
    {session' : SessionId} (owned : Owned circuit tr session id)
    (owned' : Owned circuit tr session' id) : session = session' := by
  obtain ⟨i, request, inCircuit, answered⟩ := owned
  obtain ⟨j, request', inCircuit', answered'⟩ := owned'
  obtain ⟨rfl, _⟩ := history.once i j id request request' answered answered'
  exact Option.some.inj (inCircuit.symm.trans inCircuit')

theorem owned_of_reply [DecidableEq ι] {i : ι} (inCircuit : circuit i = some session)
    (replied : RepliedWith (own i tr) id) : Owned circuit tr session id := by
  obtain ⟨request, response, names, member⟩ := replied
  exact ⟨i, request, inCircuit, response, names, mem_own.mp member⟩

end Ownership

section Steps
variable [DecidableEq ι] {rusAuth : Semantics rusAuthSig ς} {issued : ς → Str → Prop} {site : Site}
  {tasks : ι → FacadeTask} {s : App ς} {tr : OuterTrace StoreSig ι} {q : FacadePool ς ι}

theorem writing_not_at_rest
    (run : Exec (fun _ => fineEffect rusAuth) (facadePool site tasks s) tr q) {i : ι}
    (inCircuit : (tasks i).circuit ≠ none) (writing : ¬ Announced (own i tr)) :
    ¬ AtRest (own i tr) (q.task i) := by
  have follows := accounted_in_run run i
  have begun : own i tr ≠ [] := fun empty => writing (by rw [empty]; rfl)
  cases rest : q.task i with
  | ret a => rw [rest] at follows; exact absurd (follows inCircuit) writing
  | raise x => rw [rest] at follows; exact absurd (follows inCircuit) writing
  | op e next =>
    rw [rest] at follows
    exact not_at_rest_op begun fun waits => writing (announced_of_waits follows.1 waits)

theorem success_kept {s s' : App ς} {e : FineSig.Op} {a : FineSig.Answer e} {id : Str}
    (did : fineEffect rusAuth s e a s') (stored : StoredSuccess s.1 id)
    (writes : ∀ flow, e = .inl (.inl (.put id flow)) → flow.status = .success) :
    StoredSuccess s'.1 id := by
  rcases journal_step did with same | ⟨id', flow, is, wrote⟩
  · rwa [same]
  · rw [wrote]
    by_cases hit : id = id'
    · subst hit
      exact ⟨flow, AList.lookup_insert _, writes flow is⟩
    · obtain ⟨old, before, success⟩ := stored
      exact ⟨old, by rwa [AList.lookup_insert_ne hit], success⟩

theorem confirms_kept {s s' : App ς} {e : FineSig.Op} {a : FineSig.Answer e} {session : SessionId}
    {id : Str} (did : fineEffect rusAuth s e a s')
    (confirms : Confirms s.1 (s.2.2.sessions session) id)
    (tracks : ∀ id', e ≠ .inr (.inr (.assign session (.currentTransactionId id'))))
    (writes : ∀ current, (s.2.2.sessions session).currentTransactionId = some current →
      ∀ flow, e = .inl (.inl (.put current flow)) → flow.status = .success) :
    Confirms s'.1 (s'.2.2.sessions session) id := by
  obtain ⟨current, tracked, filled, same | stored⟩ := confirms
  · exact ⟨current, (current_kept did tracks).trans tracked, filled, Or.inl same⟩
  · exact ⟨current, (current_kept did tracks).trans tracked, filled,
      Or.inr (success_kept did stored (writes current tracked))⟩

variable {i j : ι} {e : FineSig.Op} {a : FineSig.Answer e} {session : SessionId}

theorem others_at_rest (turns : TakesTurns (fun i => (tasks i).circuit) tr q (i, ⟨e, a⟩))
    (inside : ¬ AtRusAuth e) (inCircuit : (tasks i).circuit = some session)
    (inCircuit' : (tasks j).circuit = some session) (other : j ≠ i) :
    AtRest (own j tr) (q.task j) :=
  turns.resolve_left inside j other (inCircuit'.trans inCircuit.symm) (by simp [inCircuit'])

/-- A record is written by a callback, which makes it a success, or by a task of the
    session it belongs to. -/
theorem put_owned (reports : Reports (fun i => (tasks i).circuit) q tr) {id : Str}
    {flow : ExampleConfirmationFlow}
    (accounted : Accounted (tasks i).circuit (own i tr) (.inl (.inl (.put id flow)))) :
    (tasks i).circuit = none ∧ flow.status = .success ∨
      ∃ session, (tasks i).circuit = some session ∧
        Owned (fun i => (tasks i).circuit) tr session id := by
  rcases accounted with ⟨inside, replied, _⟩ | ⟨old, found, _, evidence⟩
  · obtain ⟨session, inCircuit⟩ := Option.ne_none_iff_exists'.mp inside
    exact Or.inr ⟨session, inCircuit, owned_of_reply inCircuit replied⟩
  · cases inCircuit : (tasks i).circuit with
    | none =>
      rw [inCircuit] at evidence
      exact Or.inl ⟨rfl, evidence⟩
    | some session =>
      rw [inCircuit] at evidence
      exact Or.inr ⟨session, rfl, reports.read i session id (mem_own.mp evidence.1)⟩

/-- While a task of a session is not at rest, only successes are written over the
    session's records by others. -/
theorem put_by_other (history : IdHistory issued q.shared.2.1 tr)
    (reports : Reports (fun i => (tasks i).circuit) q tr)
    (accounted : Accounted (tasks i).circuit (own i tr) e)
    (turns : TakesTurns (fun i => (tasks i).circuit) tr q (i, ⟨e, a⟩))
    (inCircuit' : (tasks j).circuit = some session) (other : j ≠ i)
    (active : ¬ AtRest (own j tr) (q.task j)) {id : Str}
    (owned : Owned (fun i => (tasks i).circuit) tr session id) (flow : ExampleConfirmationFlow)
    (is : e = .inl (.inl (.put id flow))) : flow.status = .success := by
  subst is
  rcases put_owned reports accounted with ⟨_, success⟩ | ⟨session', inCircuit, owned'⟩
  · exact success
  · obtain rfl := owned_unique history owned owned'
    exact absurd (others_at_rest turns (fun outside => outside) inCircuit inCircuit' other)
      active

omit [DecidableEq ι] in
theorem writing_next {past : List (Performed FineSig)} (writing : ¬ Announced past) (e : FineSig.Op)
    (a : FineSig.Answer e)
    (untold : ∀ session message, e ≠ .inr (.inr (.assign session (.infoMessage (some message))))) :
    ¬ Announced (past ++ [⟨e, a⟩]) := by
  intro announced
  rw [Announced, progress_snoc _ e a] at announced
  rcases written_cases (progress past) e a with same | ⟨_, _, _, now⟩ | ⟨session, message, is, _⟩
  · exact writing (same.symm.trans announced)
  · cases now.symm.trans announced
  · exact untold session message is

theorem writing_kept (writing : ¬ Announced (own j tr))
    (untold : j = i → ∀ session message,
      e ≠ .inr (.inr (.assign session (.infoMessage (some message))))) :
    ¬ Announced (own j (tr ++ [(i, ⟨e, a⟩)])) := by
  by_cases mine : j = i
  · subst mine
    rw [own_snoc_self]
    exact writing_next writing e a (untold rfl)
  · rwa [own_snoc_other mine]

/-- The Success answer of a check arrives while its session tracks the transaction
    that the check has named, or one that has succeeded as well. -/
def AnswersCurrent (tasks : ι → FacadeTask) (tr : OuterTrace StoreSig ι) (m : FacadePool ς ι)
    (l : Label FineSig ι) : Prop :=
  ∀ session ∈ (tasks l.1).circuit, ∀ asked ∈ (progress (own l.1 tr)).asked,
    Arrives l.2.1 → asked.2 = .success →
      Confirms m.shared.1 (m.shared.2.2.sessions session) asked.1

instance (tasks : ι → FacadeTask) (tr : OuterTrace StoreSig ι) (m : FacadePool ς ι)
    (l : Label FineSig ι) : Decidable (AnswersCurrent tasks tr m l) :=
  inferInstanceAs (Decidable (∀ session ∈ (tasks l.1).circuit, _))

section Clauses
variable {next : FineSig.Answer e → Prog FineSig Exn (Option ExampleConfirmationFlow)} {s' : App ς}
  (reports : Reports (fun i => (tasks i).circuit) q tr)
  (accounted : Accounted (tasks i).circuit (own i tr) e)
  (did : fineEffect rusAuth q.shared e a s')
include reports accounted did

theorem current_step {id : Str}
    (tracked : (s'.2.2.sessions session).currentTransactionId = some id) :
    Owned (fun i => (tasks i).circuit) (tr ++ [(i, ⟨e, a⟩)]) session id := by
  refine owned_later (List.prefix_append _ _) ?_
  rcases tracked_step did tracked with before | rfl
  · exact reports.current session id before
  · obtain ⟨inCircuit, replied, _⟩ := accounted
    exact owned_of_reply inCircuit replied

theorem wrote_step
    (run : Exec (fun _ => fineEffect rusAuth) (facadePool site tasks s) tr q)
    (history : IdHistory issued q.shared.2.1 tr)
    (turns : TakesTurns (fun i => (tasks i).circuit) tr q (i, ⟨e, a⟩))
    {id : Str} {flow : ExampleConfirmationFlow} (inCircuit' : (tasks j).circuit = some session)
    (written : (progress (own j (tr ++ [(i, ⟨e, a⟩)]))).written = some (id, flow)) :
    Owned (fun i => (tasks i).circuit) (tr ++ [(i, ⟨e, a⟩)]) session id ∧
      (flow.status = .success → StoredSuccess s'.1 id) := by
  have later : tr <+: tr ++ [(i, ⟨e, a⟩)] := List.prefix_append _ _
  by_cases mine : j = i
  · subst mine
    rw [own_snoc_self, progress_snoc _ e a] at written
    rcases written_next written with before | rfl
    · obtain ⟨owned, stored⟩ := reports.wrote j session id flow inCircuit' before
      refine ⟨owned_later later owned, fun success => success_kept did (stored success) ?_⟩
      rintro flow' rfl
      cases written
      exact success
    · refine ⟨owned_later later ?_, fun success => ?_⟩
      · rcases put_owned reports accounted with ⟨outside, _⟩ | ⟨session', inCircuit, owned⟩
        · cases outside.symm.trans inCircuit'
        · cases inCircuit.symm.trans inCircuit'
          exact owned
      · rw [effect_put did.1]
        exact ⟨flow, AList.lookup_insert _, success⟩
  · rw [own_snoc_other mine] at written
    obtain ⟨owned, stored⟩ := reports.wrote j session id flow inCircuit' written
    have active := writing_not_at_rest run (by simp [inCircuit'])
      (show ¬ Announced (own j tr) from fun none => nomatch none.symm.trans written)
    exact ⟨owned_later later owned, fun success => success_kept did (stored success)
      (put_by_other history reports accounted turns inCircuit' mine active owned)⟩

theorem applied_step (ready : q.task i = .op e next) (history : IdHistory issued q.shared.2.1 tr)
    (turns : TakesTurns (fun i => (tasks i).circuit) tr q (i, ⟨e, a⟩))
    (answers : AnswersCurrent tasks tr q (i, ⟨e, a⟩)) {id : Str}
    (inCircuit' : (tasks j).circuit = some session)
    (applied : (progress (own j (tr ++ [(i, ⟨e, a⟩)]))).applied = some (id, .success))
    (active : ¬ AtRest (own j (tr ++ [(i, ⟨e, a⟩)])) (Function.update q.task i (next a) j)) :
    Confirms s'.1 (s'.2.2.sessions session) id := by
  by_cases mine : j = i
  · subst mine
    rw [own_snoc_self, progress_snoc _ e a] at applied
    rcases applied_next applied with ⟨rfl, asked⟩ | ⟨moves, before⟩
    · exact confirms_kept did (answers session inCircuit' _ asked trivial rfl) nofun fun _ _ _ => nofun
    · have wasActive : ¬ AtRest (own j tr) (q.task j) := by
        rw [ready]
        refine not_at_rest_op (fun empty => ?_) moves
        rw [empty] at before
        cases before
      refine confirms_kept did (reports.applied j session id inCircuit' before wasActive) ?_ ?_
      · rintro id' rfl
        obtain ⟨_, _, none, _⟩ := accounted
        cases none.symm.trans before
      · rintro current _ flow rfl
        rcases accounted with ⟨_, _, _, none⟩ | ⟨_, _, _, evidence⟩
        · cases none.symm.trans before
        · rw [inCircuit'] at evidence
          exact (Prod.mk.inj (Option.some.inj (evidence.2.symm.trans before))).2
  · rw [own_snoc_other mine] at applied active
    rw [Function.update_of_ne mine] at active
    refine confirms_kept did (reports.applied j session id inCircuit' applied active) ?_ ?_
    · rintro id' rfl
      exact active (others_at_rest turns (fun outside => outside) accounted.1 inCircuit' mine)
    · exact fun current tracks => put_by_other history reports accounted turns inCircuit' mine active
        (reports.current session current tracks)

omit reports did in
/-- A start that tracks its transaction has a record to announce. -/
theorem told_by_track {id : Str} (is : e = .inr (.inr (.assign session (.currentTransactionId id)))) :
    ∃ j, (tasks j).circuit = some session ∧ ¬ Announced (own j (tr ++ [(i, ⟨e, a⟩)])) := by
  subst is
  obtain ⟨inCircuit, _, _, flow, written⟩ := accounted
  exact ⟨i, inCircuit, writing_kept (fun none => nomatch none.symm.trans written)
    fun _ _ _ => nofun⟩

/-- Whoever sets the message of success has found the success it tells of. -/
theorem told_by_info {message : Str}
    (is : e = .inr (.inr (.assign session (.infoMessage (some message)))))
    (ready : q.task i = .op e next) (shown : message = statusMessage .success) :
    ∃ id, (s'.2.2.sessions session).currentTransactionId = some id ∧ isBlank id = false ∧
      StoredSuccess s'.1 id := by
  subst is
  cases inCircuit : (tasks i).circuit with
  | none =>
    rw [inCircuit] at accounted
    exact absurd shown accounted
  | some session' =>
    rw [inCircuit] at accounted
    obtain ⟨rfl, id, flow, written, checked⟩ := accounted
    obtain ⟨success, applied⟩ := checked shown
    have active : ¬ AtRest (own i tr) (q.task i) := by
      rw [ready]
      refine not_at_rest_op (fun empty => ?_) (fun waits => waits)
      rw [empty] at written
      cases written
    have stored := (reports.wrote i session' id flow inCircuit written).2 success
    obtain ⟨current, tracks, filled, same | succeeded⟩ :=
      reports.applied i session' id inCircuit applied active
    · subst same
      exact ⟨current, (current_kept did nofun).trans tracks, filled,
        success_kept did stored fun _ => nofun⟩
    · exact ⟨current, (current_kept did nofun).trans tracks, filled,
        success_kept did succeeded fun _ => nofun⟩

/-- A message of success that a step leaves alone still has what lies behind it. -/
theorem told_kept (history : IdHistory issued q.shared.2.1 tr)
    (told : (q.shared.2.2.sessions session).infoMessage = some (statusMessage .success))
    (same : (s'.2.2.sessions session).currentTransactionId =
      (q.shared.2.2.sessions session).currentTransactionId)
    (untold : ∀ message, e ≠ .inr (.inr (.assign session (.infoMessage (some message))))) :
    (∃ id, (s'.2.2.sessions session).currentTransactionId = some id ∧ isBlank id = false ∧
      StoredSuccess s'.1 id) ∨
    ∃ j, (tasks j).circuit = some session ∧ ¬ Announced (own j (tr ++ [(i, ⟨e, a⟩)])) := by
  rw [same]
  rcases reports.told session told with ⟨id, tracks, filled, stored⟩ | ⟨j, inCircuit', writing⟩
  · by_cases replaced : ∃ flow, e = .inl (.inl (.put id flow)) ∧ flow.status ≠ .success
    · obtain ⟨flow, is, failed⟩ := replaced
      rcases put_owned reports (is ▸ accounted) with ⟨_, success⟩ | ⟨session', inCircuit, owned⟩
      · exact absurd success failed
      · obtain rfl := owned_unique history (reports.current session id tracks) owned
        refine Or.inr ⟨i, inCircuit, fun announced => ?_⟩
        rw [own_snoc_self, Announced, progress_snoc _ e a] at announced
        subst is
        cases announced
    · refine Or.inl ⟨id, tracks, filled, success_kept did stored fun flow is => ?_⟩
      exact Classical.byContradiction fun failed => replaced ⟨flow, is, failed⟩
  · refine Or.inr ⟨j, inCircuit', writing_kept writing ?_⟩
    rintro rfl session' message rfl
    have inside := accounted
    rw [inCircuit'] at inside
    obtain ⟨rfl, _⟩ := inside
    exact untold message rfl

theorem told_step (ready : q.task i = .op e next) (history : IdHistory issued q.shared.2.1 tr)
    (told : (s'.2.2.sessions session).infoMessage = some (statusMessage .success)) :
    (∃ id, (s'.2.2.sessions session).currentTransactionId = some id ∧ isBlank id = false ∧
      StoredSuccess s'.1 id) ∨
    ∃ j, (tasks j).circuit = some session ∧ ¬ Announced (own j (tr ++ [(i, ⟨e, a⟩)])) := by
  rcases session_step did session with ⟨assignment, is, after⟩ | ⟨other, same⟩
  · cases assignment with
    | currentTransactionId id => exact Or.inr (told_by_track accounted is)
    | infoMessage message =>
      rw [after] at told
      subst told
      exact Or.inl (told_by_info reports accounted did is ready rfl)
    | errorMessage message =>
      rw [after] at told
      refine told_kept reports accounted did history told (by rw [after]; rfl) ?_
      rintro _ rfl
      cases is
  · rw [same] at told
    exact told_kept reports accounted did history told (by rw [same]) fun _ => other _

end Clauses

theorem reports_step
    (run : Exec (fun _ => fineEffect rusAuth) (facadePool site tasks s) tr q)
    (history : IdHistory issued q.shared.2.1 tr)
    (reports : Reports (fun i => (tasks i).circuit) q tr) {l : Label FineSig ι} {r : FacadePool ς ι}
    (step : Step (fun _ => fineEffect rusAuth) q l r)
    (turns : TakesTurns (fun i => (tasks i).circuit) tr q l) (answers : AnswersCurrent tasks tr q l) :
    Reports (fun i => (tasks i).circuit) r (tr ++ [l]) := by
  cases step with
  | @act i e next a s' ready did =>
    have accounted : Accounted (tasks i).circuit (own i tr) e :=
      exec_obeys run (.act ready did) (Prog.obeys_of_follows (task_accounted site (tasks i)))
    constructor
    case current => exact fun session id tracked => current_step reports accounted did tracked
    case read =>
      intro j session id member
      refine owned_later (List.prefix_append _ _) ?_
      rcases List.mem_append.mp member with old | new
      · exact reports.read j session id old
      · cases List.mem_singleton.mp new
        exact reports.current session id (current_read did)
    case wrote =>
      exact fun j session id flow inCircuit written =>
        wrote_step reports accounted did run history turns inCircuit written
    case applied =>
      exact fun j session id inCircuit applied active =>
        applied_step reports accounted did ready history turns answers inCircuit applied active
    case told => exact fun session told => told_step reports accounted did ready history told

end Steps

/-- If the session announces the success of a check, GetCurrentFlow returns a flow
    that has succeeded. -/
def TellsTruth (s : App ς) (session : SessionId) : Prop :=
  (s.2.2.sessions session).infoMessage = some (statusMessage .success) →
    ∀ clock client renders, ∃ flow,
      (getCurrentFlow session).exec (alone clock client renders) s = (.ok (some flow), s) ∧
        flow.status = .success

theorem current_of_truth {s : App ς} {session : SessionId} (tells : TellsTruth s session)
    (told : (s.2.2.sessions session).infoMessage = some (statusMessage .success))
    (client : (e : rusAuthSig.Op) → ς → rusAuthSig.Answer e × ς) :
    (flowOf s.1 (s.2.2.sessions session)).map ExampleConfirmationFlow.status = some .success := by
  obtain ⟨flow, found, success⟩ := tells told id client fun _ => .ok ()
  have outcome := congrArg Prod.fst found
  rw [get_current_flow_alone id client (fun _ => .ok ()) s.1 s.2.1 s.2.2 session] at outcome
  rw [Except.ok.inj outcome, Option.map_some, success]

section Runs
variable [DecidableEq ι] {rusAuth : Semantics rusAuthSig ς} {issued : ς → Str → Prop} {site : Site}
  {tasks : ι → FacadeTask} {journal : Journal} {service : ς} {circuits : Circuits}
  {tr : OuterTrace StoreSig ι} {q : FacadePool ς ι}

theorem reports_run (ids : IssuesOnce rusAuth issued)
    (run : Guided (fun _ => fineEffect rusAuth)
      (fun tr m l => TakesTurns (fun i => (tasks i).circuit) tr m l ∧ AnswersCurrent tasks tr m l)
      (facadePool site tasks (journal, service, circuits)) tr q)
    (initially : ∀ session, circuits.sessions session = .initial) :
    Reports (fun i => (tasks i).circuit) q tr := by
  induction run with
  | nil =>
    refine ⟨fun session id tracked => ?_, nofun, nofun, nofun, fun session told => ?_⟩
    · rw [show (facadePool site tasks (journal, service, circuits)).shared.2.2.sessions session = _
        from initially session] at tracked
      cases tracked
    · rw [show (facadePool site tasks (journal, service, circuits)).shared.2.2.sessions session = _
        from initially session] at told
      cases told
  | snoc before last meets ih =>
    have exec := guided_exec before
    exact reports_step exec (id_history ids exec) ih last meets.1 meets.2

/-- In every run of any sessions in which each Success answer of a check arrives
    while its session still tracks the transaction, no session announces a success
    that its current flow has not had, whenever none of its calls has just written a
    record that it is about to announce. -/
theorem success_of_current (ids : IssuesOnce rusAuth issued)
    (run : Guided (fun _ => fineEffect rusAuth)
      (fun tr m l => TakesTurns (fun i => (tasks i).circuit) tr m l ∧ AnswersCurrent tasks tr m l)
      (facadePool site tasks (journal, service, circuits)) tr q)
    (initially : ∀ session, circuits.sessions session = .initial) (session : SessionId)
    (returned : ∀ i, (tasks i).circuit = some session → Announced (own i tr)) :
    TellsTruth q.shared session := by
  intro told clock client renders
  rcases (reports_run ids run initially).told session told with
    ⟨id, tracks, filled, flow, stored, success⟩ | ⟨i, inCircuit, writing⟩
  · refine ⟨flow, ?_, success⟩
    rw [get_current_flow_alone clock client renders q.shared.1 q.shared.2.1 q.shared.2.2 session,
      flowOf, tracks]
    dsimp only
    rw [if_neg (by simp [filled]), stored]
  · exact absurd (returned i inCircuit) writing

end Runs

/- A check of the first transaction waits while a second one is started. -/
namespace SecondStart

inductive Party where
  | first
  | checking
  | second
  deriving DecidableEq

instance : Fintype Party := .ofList [.first, .checking, .second] fun party => by
  cases party <;> decide

def tasks : Party → FacadeTask
  | .first => .start 0 (lit "79001234567") [] 10
  | .checking => .check 0 (lit "79001234567")
  | .second => .start 0 (lit "79001234567") [] 10

def transaction (n : Nat) : Str := List.replicate (n + 1) 116

/-- RusAuth numbers its transactions and confirms whatever it is asked about. -/
def service : (e : rusAuthSig.Op) → Nat → rusAuthSig.Answer e × Nat
  | .callToConfirm _, n => (.ok ⟨some (transaction n), none⟩, n + 1)
  | .checkConfirmation _, n => (.ok ⟨.success⟩, n)
  | .decide _ _, n => ((), n)
  | .sendCallback _, n => ((), n)

abbrev counting : Semantics rusAuthSig Nat := Sample.behaves service

def Issued (n : Nat) (id : Str) : Prop := ∃ k < n, id = transaction k

theorem transaction_injective {m n : Nat} (same : transaction m = transaction n) : m = n := by
  have lengths := congrArg List.length same
  simpa [transaction] using lengths

theorem issues_once : IssuesOnce counting Issued where
  fresh n request response n' id did names := by
    cases did
    cases names
    refine ⟨?_, n, Nat.lt_succ_self n, rfl⟩
    rintro ⟨k, before, same⟩
    exact absurd (transaction_injective same) (Nat.ne_of_gt before)
  kept n e a n' id did issued := by
    obtain ⟨k, before, rfl⟩ := issued
    cases e <;> cases did <;> exact ⟨k, by omega, rfl⟩

def start : FacadePool Nat Party := facadePool Sample.site tasks (∅, 0, .initial)

abbrev answers : (e : FineSig.Op) → App Nat → FineSig.Answer e × App Nat :=
  Sample.answering service

def asked : List Party := List.replicate 8 .first ++ [.checking, .checking]

def answered : List Party := List.replicate 7 .checking

def started : List Party := List.replicate 8 .second

def stale : OuterTrace StoreSig Party × FacadePool Nat Party :=
  replay answers start (asked ++ started ++ answered)

def timely : OuterTrace StoreSig Party × FacadePool Nat Party :=
  replay answers start (asked ++ answered)

theorem stale_run : Guided (fun _ => fineEffect counting)
    (fun tr m l => TakesTurns (fun i => (tasks i).circuit) tr m l) start stale.1 stale.2 :=
  replay_guided (fun _ => Sample.answering_behaves _) .nil (asked ++ started ++ answered) (by decide)

theorem timely_run : Guided (fun _ => fineEffect counting)
    (fun tr m l => TakesTurns (fun i => (tasks i).circuit) tr m l ∧ AnswersCurrent tasks tr m l)
    start timely.1 timely.2 :=
  replay_guided (fun _ => Sample.answering_behaves _) .nil (asked ++ answered) (by decide)

theorem stale_current : (flowOf stale.2.shared.1 (stale.2.shared.2.2.sessions 0)).map
    ExampleConfirmationFlow.status = some .unhandled := by decide

end SecondStart

theorem stale_success_told :
    IssuesOnce SecondStart.counting SecondStart.Issued ∧
    Guided (fun _ => fineEffect SecondStart.counting)
      (fun tr m l => TakesTurns (fun i => (SecondStart.tasks i).circuit) tr m l)
      SecondStart.start SecondStart.stale.1 SecondStart.stale.2 ∧
    (∀ i, Finished (SecondStart.stale.2.task i)) ∧ ¬ TellsTruth SecondStart.stale.2.shared 0 := by
  refine ⟨SecondStart.issues_once, SecondStart.stale_run, by decide, fun tells => ?_⟩
  have current := current_of_truth tells rfl SecondStart.service
  rw [SecondStart.stale_current] at current
  cases current

theorem timely_success_true : TellsTruth SecondStart.timely.2.shared 0 :=
  success_of_current SecondStart.issues_once SecondStart.timely_run (fun _ => rfl) 0 (by decide)

end RusAuthExample
