import RusAuthExample.FacadeCalls
import RusAuthExample.IssuedTransactions

/-!
The transaction a session tracks is in the journal. A start writes the record before
it lets the session track the id, and nothing takes a key away. So an id that a
check has read stays a key, however long the check waits for RusAuth.
-/
namespace RusAuthExample
open Utf16Text OperationPrograms InterleavedRuns KeyedMemory

variable {ς ι : Type}

section Steps
variable {rusAuth : Semantics rusAuthSig ς} {s s' : App ς} {e : FineSig.Op} {a : FineSig.Answer e}

theorem journal_step (did : fineEffect rusAuth s e a s') :
    s'.1 = s.1 ∨ ∃ id flow, e = .inl (.inl (.put id flow)) ∧ s'.1 = s.1.insert id flow := by
  match e with
  | .inl (.inl (.get id)) => exact Or.inl (effect_get did.1).2
  | .inl (.inl (.put id flow)) => exact Or.inr ⟨id, flow, rfl, effect_put did.1⟩
  | .inl (.inr ()) => exact Or.inl did.1
  | .inr e => exact Or.inl did.2

theorem key_kept (did : fineEffect rusAuth s e a s') {id : Str} (key : id ∈ s.1) : id ∈ s'.1 := by
  rcases journal_step did with same | ⟨id', flow, _, wrote⟩
  · rwa [same]
  · rw [wrote, AList.mem_insert]
    exact Or.inr key

theorem session_step (did : fineEffect rusAuth s e a s') (session : SessionId) :
    (∃ assignment, e = .inr (.inr (.assign session assignment)) ∧
      s'.2.2.sessions session = assignment.apply (s.2.2.sessions session)) ∨
    (∀ assignment, e ≠ .inr (.inr (.assign session assignment))) ∧
      s'.2.2.sessions session = s.2.2.sessions session := by
  match e with
  | .inl e => exact Or.inr ⟨nofun, by rw [did.2]⟩
  | .inr (.inl e) => exact Or.inr ⟨nofun, by rw [did.1.2]⟩
  | .inr (.inr e) =>
    obtain ⟨renders, _, after⟩ := host_answered did
    rw [after]
    cases e with
    | assign session' assignment =>
      by_cases same : session = session'
      · subst same
        exact Or.inl ⟨assignment, rfl, by simp [hostAnswer]⟩
      · refine Or.inr ⟨fun assignment' is => ?_, by simp [hostAnswer, same]⟩
        cases is
        exact same rfl
    | _ => exact Or.inr ⟨nofun, rfl⟩

theorem page_step (did : fineEffect rusAuth s e a s') (page : Page) :
    (∃ model, e = .inr (.inr (.edit page model)) ∧
      s'.2.2.pages page = { s.2.2.pages page with model := model }) ∨
    (∃ isBusy, e = .inr (.inr (.setIsBusy page isBusy)) ∧
      s'.2.2.pages page = { s.2.2.pages page with isBusy := isBusy }) ∨
    (∃ localError, e = .inr (.inr (.setLocalError page localError)) ∧
      s'.2.2.pages page = { s.2.2.pages page with localError := localError }) ∨
    s'.2.2.pages page = s.2.2.pages page := by
  match e with
  | .inl e => exact Or.inr (Or.inr (Or.inr (by rw [did.2])))
  | .inr (.inl e) => exact Or.inr (Or.inr (Or.inr (by rw [did.1.2])))
  | .inr (.inr e) =>
    obtain ⟨renders, _, after⟩ := host_answered did
    rw [after]
    cases e with
    | edit page' model =>
      rcases eq_or_ne page page' with rfl | other
      · exact Or.inl ⟨model, rfl, Function.update_self ..⟩
      · exact Or.inr (Or.inr (Or.inr (Function.update_of_ne other ..)))
    | setIsBusy page' isBusy =>
      rcases eq_or_ne page page' with rfl | other
      · exact Or.inr (Or.inl ⟨isBusy, rfl, Function.update_self ..⟩)
      · exact Or.inr (Or.inr (Or.inr (Function.update_of_ne other ..)))
    | setLocalError page' localError =>
      rcases eq_or_ne page page' with rfl | other
      · exact Or.inr (Or.inr (Or.inl ⟨localError, rfl, Function.update_self ..⟩))
      · exact Or.inr (Or.inr (Or.inr (Function.update_of_ne other ..)))
    | _ => exact Or.inr (Or.inr (Or.inr rfl))

theorem current_kept (did : fineEffect rusAuth s e a s') {session : SessionId}
    (tracks : ∀ id, e ≠ .inr (.inr (.assign session (.currentTransactionId id)))) :
    (s'.2.2.sessions session).currentTransactionId =
      (s.2.2.sessions session).currentTransactionId := by
  rcases session_step did session with ⟨assignment, is, after⟩ | ⟨_, same⟩
  · rw [after]
    cases assignment with
    | currentTransactionId id => exact absurd is (tracks id)
    | _ => rfl
  · rw [same]

theorem tracked_step (did : fineEffect rusAuth s e a s') {session : SessionId} {id : Str}
    (tracked : (s'.2.2.sessions session).currentTransactionId = some id) :
    (s.2.2.sessions session).currentTransactionId = some id ∨
      e = .inr (.inr (.assign session (.currentTransactionId id))) := by
  by_cases tracks : ∃ id', e = .inr (.inr (.assign session (.currentTransactionId id')))
  · obtain ⟨id', is⟩ := tracks
    rcases session_step did session with ⟨assignment, is', after⟩ | ⟨other, _⟩
    · cases is.symm.trans is'
      rw [after] at tracked
      cases tracked
      exact Or.inr is
    · exact absurd is (other _)
  · rw [current_kept did fun id' is => tracks ⟨id', is⟩] at tracked
    exact Or.inl tracked

theorem current_read {session : SessionId} {tracked : Option Str}
    (did : fineEffect rusAuth s (.inr (.inr (.currentTransactionId session))) tracked s') :
    (s.2.2.sessions session).currentTransactionId = tracked := by
  obtain ⟨renders, answer, _⟩ := host_answered did
  exact answer.symm

end Steps

structure KeepsKeys (circuit : ι → Option SessionId) (s : App ς) (tr : OuterTrace StoreSig ι) :
    Prop where
  current : ∀ session id, (s.2.2.sessions session).currentTransactionId = some id → id ∈ s.1
  read : ∀ i session id, (i, ⟨.inr (.inr (.currentTransactionId session)), some id⟩) ∈ tr → id ∈ s.1
  wrote : ∀ i id flow, (i, ⟨.inl (.inl (.put id flow)), ()⟩) ∈ tr → id ∈ s.1
  found : ∀ i id flow, (i, ⟨.inl (.inl (.get id)), some flow⟩) ∈ tr →
    flow.transactionId = id ∧ id ∈ s.1
  sure : ∀ i id, circuit i ≠ none → (i, ⟨.inl (.inl (.get id)), none⟩) ∉ tr
  named : ∀ id flow, s.1.lookup id = some flow → flow.transactionId = id
  answered : ∀ id ∈ s.1, ∃ i request, Answered tr i id request

section KeysStep
variable [DecidableEq ι] {rusAuth : Semantics rusAuthSig ς} {circuit : ι → Option SessionId}
  {s s' : App ς} {tr : OuterTrace StoreSig ι} {i : ι} {e : FineSig.Op} {a : FineSig.Answer e}

/-- A record is written under its own id: by a start, or as a copy of the one found there. -/
theorem named_step (keys : KeepsKeys circuit s tr) (accounted : Accounted (circuit i) (own i tr) e)
    (did : fineEffect rusAuth s e a s') {id : Str} {flow : ExampleConfirmationFlow}
    (stored : s'.1.lookup id = some flow) : flow.transactionId = id := by
  rcases journal_step did with same | ⟨id', flow', rfl, wrote⟩
  · rw [same] at stored
    exact keys.named id flow stored
  · rw [wrote] at stored
    rcases lookup_insert_cases stored with ⟨rfl, rfl⟩ | ⟨_, before⟩
    · rcases accounted with ⟨_, _, named, _⟩ | ⟨old, found, same, _⟩
      · exact named
      · rw [same]
        exact (keys.found i id old (mem_own.mp found)).1
    · exact keys.named id flow before

theorem answered_step (keys : KeepsKeys circuit s tr)
    (accounted : Accounted (circuit i) (own i tr) e) (did : fineEffect rusAuth s e a s') {id : Str}
    (key : id ∈ s'.1) : ∃ j request, Answered (tr ++ [(i, ⟨e, a⟩)]) j id request := by
  have old : id ∈ s.1 → ∃ j request, Answered (tr ++ [(i, ⟨e, a⟩)]) j id request := by
    intro before
    obtain ⟨j, request, answered⟩ := keys.answered id before
    exact ⟨j, request, answered_later (List.prefix_append _ _) answered⟩
  rcases journal_step did with same | ⟨id', flow', rfl, wrote⟩
  · rw [same] at key
    exact old key
  · rw [wrote, AList.mem_insert] at key
    rcases key with rfl | before
    · rcases accounted with ⟨_, ⟨request, response, names, replied⟩, _⟩ | ⟨flow, found, _⟩
      · exact ⟨i, request, response, names, List.mem_append_left _ (mem_own.mp replied)⟩
      · exact old (keys.found i id flow (mem_own.mp found)).2
    · exact old before

theorem keys_step (keys : KeepsKeys circuit s tr) (accounted : Accounted (circuit i) (own i tr) e)
    (did : fineEffect rusAuth s e a s') : KeepsKeys circuit s' (tr ++ [(i, ⟨e, a⟩)]) := by
  have split : ∀ {l : Label FineSig ι}, l ∈ tr ++ [(i, ⟨e, a⟩)] → l ∈ tr ∨ l = (i, ⟨e, a⟩) := by
    intro l member
    simpa using member
  constructor
  case current =>
    intro session id tracked
    rcases tracked_step did tracked with before | rfl
    · exact key_kept did (keys.current session id before)
    · obtain ⟨_, _, _, flow, written⟩ := accounted
      exact key_kept did (keys.wrote i id flow (mem_own.mp (written_put written)))
  case read =>
    intro j session id member
    rcases split member with old | new
    · exact key_kept did (keys.read j session id old)
    · cases new
      exact key_kept did (keys.current session id (current_read did))
  case wrote =>
    intro j id flow member
    rcases split member with old | new
    · exact key_kept did (keys.wrote j id flow old)
    · cases new
      rw [effect_put did.1, AList.mem_insert]
      exact Or.inl rfl
  case found =>
    intro j id flow member
    rcases split member with old | new
    · exact ⟨(keys.found j id flow old).1, key_kept did (keys.found j id flow old).2⟩
    · cases new
      obtain ⟨stored, _⟩ := effect_get did.1
      exact ⟨keys.named id flow stored.symm,
        key_kept did (AList.lookup_isSome.mp (by rw [← stored]; rfl))⟩
  case sure =>
    intro j id inCircuit member
    rcases split member with old | new
    · exact keys.sure j id inCircuit old
    · cases new
      obtain ⟨session, is⟩ := Option.ne_none_iff_exists'.mp inCircuit
      have key := keys.read i session id (mem_own.mp (accounted session is))
      obtain ⟨missing, _⟩ := effect_get did.1
      rw [← AList.lookup_isSome, ← missing] at key
      cases key
  case named => exact fun id flow => named_step keys accounted did
  case answered => exact fun id => answered_step keys accounted did

end KeysStep

/-- GetCurrentFlow finds the tracked transaction, and no other. -/
theorem flow_of_keys {circuit : ι → Option SessionId} {s : App ς} {tr : OuterTrace StoreSig ι}
    (keys : KeepsKeys circuit s tr)
    (named : ∀ i id request, Answered tr i id request → isBlank id = false) (session : SessionId) :
    (flowOf s.1 (s.2.2.sessions session) = none ↔
      (s.2.2.sessions session).currentTransactionId = none) ∧
    ∀ flow, flowOf s.1 (s.2.2.sessions session) = some flow →
      (s.2.2.sessions session).currentTransactionId = some flow.transactionId := by
  unfold flowOf
  cases tracked : (s.2.2.sessions session).currentTransactionId with
  | none => simp
  | some id =>
    have key := keys.current session id tracked
    obtain ⟨i, request, answered⟩ := keys.answered id key
    obtain ⟨flow, stored⟩ := Option.isSome_iff_exists.mp (AList.lookup_isSome.mpr key)
    have filled : isBlank id = false := named i id request answered
    simp [filled, stored, keys.named id flow stored]

section Runs
variable [DecidableEq ι] {rusAuth : Semantics rusAuthSig ς} {site : Site} {tasks : ι → FacadeTask}
  {service : ς} {circuits : Circuits} {tr : OuterTrace StoreSig ι} {q : FacadePool ς ι}

theorem accounted_in_run {s : App ς}
    (run : Exec (fun _ => fineEffect rusAuth) (facadePool site tasks s) tr q) (i : ι) :
    (q.task i).Follows (Accounted (tasks i).circuit)
      (fun _ done => (tasks i).circuit ≠ none → Announced done) (own i tr) :=
  exec_follows run (task_accounted site (tasks i))

theorem keys_run
    (run : Exec (fun _ => fineEffect rusAuth) (facadePool site tasks (∅, service, circuits)) tr q)
    (untracked : ∀ session, (circuits.sessions session).currentTransactionId = none) :
    KeepsKeys (fun i => (tasks i).circuit) q.shared tr := by
  refine exec_invariant (fun i => Prog.obeys_of_follows (task_accounted site (tasks i))) ?_ ?_ run
  · refine ⟨fun session id tracked => ?_, ?_, ?_, ?_, ?_, ?_, ?_⟩
    · cases (untracked session).symm.trans tracked
    all_goals intros; simp_all [facadePool, AList.lookup_empty]
  · intro s tr i e a s' keys accounted did
    exact keys_step keys accounted did

/-- A check ends with an exception only if nothing was tracked, RusAuth's client
    threw it, or the journal lacked the transaction. -/
theorem check_fails {s : App ς}
    (run : Exec (fun _ => fineEffect rusAuth) (facadePool site tasks s) tr q) {i : ι}
    {session : SessionId} {phoneNumber : Str} (is : tasks i = .check session phoneNumber) {x : Exn}
    (failed : q.task i = .raise x) : CheckFails (own i tr) x := by
  have follows : (((tasks i).program site).interp withAccesses).Follows
      (Accounted (some session)) (fun r done => ∀ x, r = .error x → CheckFails done x) [] := by
    rw [is]
    refine Prog.follows_interp_bind (check_accounted session phoneNumber rfl) (fun _ _ _ => nofun) ?_
    intro x done ends y same
    cases same
    exact ends.2 x rfl
  have ended := exec_follows run follows
  rw [failed] at ended
  exact ended x rfl

/-- The transaction a check names in its request, sent or about to be sent. -/
def Captures (q : FacadePool ς ι) (tr : OuterTrace StoreSig ι) (i : ι) (id : Str) : Prop :=
  ∃ request, request.transactionId = id ∧
    ((∃ next, q.task i = .op (.inr (.inl (.checkConfirmation request))) next) ∨
      ∃ reply, (i, ⟨.inr (.inl (.checkConfirmation request)), reply⟩) ∈ tr)

theorem captured_read {s : App ς}
    (run : Exec (fun _ => fineEffect rusAuth) (facadePool site tasks s) tr q) {i : ι} {id : Str}
    (captures : Captures q tr i id) :
    ∃ session, (i, ⟨.inr (.inr (.currentTransactionId session)), some id⟩) ∈ tr := by
  obtain ⟨request, rfl, ⟨next, asks⟩ | ⟨reply, asked⟩⟩ := captures
  · have follows := accounted_in_run run i
    rw [asks] at follows
    obtain ⟨_, session, _, tracked⟩ := follows.1
    exact ⟨session, mem_own.mp tracked⟩
  · obtain ⟨xs, ys, rfl⟩ := List.append_of_mem asked
    obtain ⟨_, session, _, tracked⟩ := exec_obeys_at run
      (Prog.obeys_of_follows (task_accounted site (tasks i)))
    exact ⟨session, List.mem_append_left _ (mem_own.mp tracked)⟩

/-- In every reachable state the tracked and the captured transactions are keys of
    the journal, so that no check misses its transaction; and if RusAuth names no
    blank one, GetCurrentFlow finds the tracked transaction whenever there is one. -/
theorem tracked_in_journal
    (run : Exec (fun _ => fineEffect rusAuth) (facadePool site tasks (∅, service, circuits)) tr q)
    (untracked : ∀ session, (circuits.sessions session).currentTransactionId = none) :
    (∀ session id, (q.shared.2.2.sessions session).currentTransactionId = some id →
      id ∈ q.shared.1) ∧
    (∀ i id, Captures q tr i id → id ∈ q.shared.1) ∧
    (∀ i id, (tasks i).circuit ≠ none → (i, ⟨.inl (.inl (.get id)), none⟩) ∉ tr) ∧
    (∀ i session phoneNumber x, tasks i = .check session phoneNumber → q.task i = .raise x →
      x = .invalidOperation noTransactionMessage ∨
        ∃ request, (i, ⟨.inr (.inl (.checkConfirmation request)), Except.error x⟩) ∈ tr) ∧
    ((∀ i id request, Answered tr i id request → isBlank id = false) →
      ∀ clock client renders session, ∃ found,
        (getCurrentFlow session).exec (alone clock client renders) q.shared =
          (.ok found, q.shared) ∧
        (found = none ↔ (q.shared.2.2.sessions session).currentTransactionId = none) ∧
        ∀ flow, found = some flow →
          (q.shared.2.2.sessions session).currentTransactionId = some flow.transactionId) := by
  have keys := keys_run run untracked
  refine ⟨keys.current, ?_, keys.sure, ?_, ?_⟩
  · intro i id captures
    obtain ⟨session, read⟩ := captured_read run captures
    exact keys.read i session id read
  · intro i session phoneNumber x is failed
    rcases check_fails run is failed with none | ⟨request, replied⟩ | ⟨id, missing⟩
    · exact Or.inl none
    · exact Or.inr ⟨request, mem_own.mp replied⟩
    · have inCircuit : (tasks i).circuit ≠ none := by simp [is, FacadeTask.circuit]
      exact absurd (mem_own.mp missing) (keys.sure i id inCircuit)
  · intro named clock client renders session
    exact ⟨_, get_current_flow_alone clock client renders q.shared.1 q.shared.2.1 q.shared.2.2
      session, flow_of_keys keys named session⟩

end Runs

/- A start, and a check that has read the transaction and asked for it. -/
namespace CheckInFlight

inductive Party where
  | starting
  | checking
  deriving DecidableEq

def tasks : Party → FacadeTask
  | .starting => .start 0 (lit "79001234567") [] 10
  | .checking => .check 0 (lit "79001234567")

def after : OuterTrace StoreSig Party × FacadePool Unit Party :=
  replay (Sample.answering Sample.confirming)
    (facadePool Sample.site tasks (∅, (), .initial))
    (List.replicate 8 .starting ++ [.checking, .checking])

theorem run : Exec (fun _ => fineEffect Sample.anyService)
    (facadePool Sample.site tasks (∅, (), .initial)) after.1 after.2 :=
  replay_exec (fun _ => Sample.answering_any _) _ _

def answeredId : Label FineSig Party → Option Str
  | (_, ⟨.inr (.inl (.callToConfirm _)), .ok response⟩) => response.transactionId
  | _ => none

theorem answered_ids {i : Party} {id : Str} {request : RusAuthCallToConfirmRequest}
    (answered : Answered after.1 i id request) : id = [116] := by
  obtain ⟨response, names, member⟩ := answered
  have listed : id ∈ after.1.filterMap answeredId := List.mem_filterMap.mpr ⟨_, member, names⟩
  rw [show after.1.filterMap answeredId = [[116]] by decide] at listed
  exact List.mem_singleton.mp listed

end CheckInFlight

theorem captured_stays_stored :
    [116] ∈ CheckInFlight.after.2.shared.1 ∧
    ∃ found, (getCurrentFlow 0).exec (alone id Sample.confirming fun _ => .ok ())
      CheckInFlight.after.2.shared = (.ok found, CheckInFlight.after.2.shared) ∧ found ≠ none := by
  obtain ⟨_, captured, _, _, finds⟩ :=
    tracked_in_journal CheckInFlight.run fun _ => rfl
  refine ⟨captured .checking [116] ⟨⟨lit "79001234567", [116]⟩, rfl, Or.inr ⟨.ok ⟨.success⟩, ?_⟩⟩, ?_⟩
  · exact List.mem_of_getElem? (i := 9) rfl
  · obtain ⟨found, alone, missing, _⟩ := finds
      (fun i id request answered => by rw [CheckInFlight.answered_ids answered]; decide)
      id Sample.confirming (fun _ => .ok ()) 0
    exact ⟨found, alone, fun none => nomatch missing.mp none⟩

end RusAuthExample
