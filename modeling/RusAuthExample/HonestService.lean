import RusAuthExample.IssuedTransactions

/-!
An honest RusAuth: it never reuses an id, decides on a transaction at most once,
answers a check with the status it holds at that moment, and sends a callback
only for a confirmed transaction. Replies and callbacks may be as late as they
like. The local status then follows the decision, unless a waiting reply is
applied to a flow that has been decided in the meantime.
-/
namespace RusAuthExample
open Utf16Text OperationPrograms InterleavedRuns KeyedMemory

/-- The status RusAuth holds for each transaction it has issued. -/
abbrev Verdicts := Str → Option CallConfirmationStatus

def honest (site : Site) : Semantics rusAuthSig Verdicts := fun s e =>
  match e with
  | .callToConfirm _ => fun (reply : Except Exn RusAuthCallToConfirmResponse) s' =>
    match reply with
    | .ok ⟨some id, _⟩ => s id = none ∧ s' = Function.update s id (some .unhandled)
    | .ok ⟨none, _⟩ => s' = s
    -- the transaction may exist although its reply was lost
    | .error _ => s' = s ∨ ∃ id, s id = none ∧ s' = Function.update s id (some .unhandled)
  | .checkConfirmation request => fun (reply : Except Exn RusCheckConfirmationResponse) s' =>
    s' = s ∧ ∀ response, reply = .ok response → s request.transactionId = some response.status
  | .decide id status => fun _ s' =>
    s id = some .unhandled ∧ status ≠ .unhandled ∧ s' = Function.update s id (some status)
  | .sendCallback request => fun _ s' =>
    s' = s ∧ ∀ body id, Accepted site request body → body.transactionId = some id →
      s id = some .success

section Service
variable {site : Site} {s s' : Verdicts} {e : rusAuthSig.Op} {a : rusAuthSig.Answer e}

theorem honest_cases (did : honest site s e a s') (id : Str) :
    s' id = s id ∨ (s id = none ∧ s' id = some .unhandled) ∨
      ∃ status, s id = some .unhandled ∧ status ≠ .unhandled ∧ s' id = some status := by
  have updated : ∀ id' status, s' = Function.update s id' (some status) →
      s' id = s id ∨ (id = id' ∧ s' id = some status) := by
    rintro id' status rfl
    by_cases same : id = id'
    · exact Or.inr ⟨same, by rw [same, Function.update_self]⟩
    · exact Or.inl (Function.update_of_ne same _ _)
  have issues : ∀ id', s id' = none → s' = Function.update s id' (some .unhandled) →
      s' id = s id ∨ (s id = none ∧ s' id = some .unhandled) := by
    intro id' unissued same
    rcases updated id' _ same with kept | ⟨rfl, now⟩
    · exact Or.inl kept
    · exact Or.inr ⟨unissued, now⟩
  match e, a with
  | .callToConfirm _, (.ok ⟨some id', _⟩ : Except Exn RusAuthCallToConfirmResponse) =>
    rcases issues id' did.1 did.2 with kept | issued
    · exact Or.inl kept
    · exact Or.inr (Or.inl issued)
  | .callToConfirm _, (.ok ⟨none, _⟩ : Except Exn RusAuthCallToConfirmResponse) =>
    exact Or.inl (congrFun did id)
  | .callToConfirm _, (.error _ : Except Exn RusAuthCallToConfirmResponse) =>
    rcases did with same | ⟨id', unissued, same⟩
    · exact Or.inl (congrFun same id)
    · rcases issues id' unissued same with kept | issued
      · exact Or.inl kept
      · exact Or.inr (Or.inl issued)
  | .checkConfirmation _, _ => exact Or.inl (congrFun did.1 id)
  | .decide id' status, _ =>
    obtain ⟨waiting, decides, same⟩ := did
    rcases updated id' status same with kept | ⟨rfl, now⟩
    · exact Or.inl kept
    · exact Or.inr (Or.inr ⟨status, waiting, decides, now⟩)
  | .sendCallback _, _ => exact Or.inl (congrFun did.1 id)

theorem verdict_stays (did : honest site s e a s') {id : Str} {status : CallConfirmationStatus}
    (decided : status ≠ .unhandled) (verdict : s id = some status) : s' id = some status := by
  rcases honest_cases did id with same | ⟨none, _⟩ | ⟨_, waiting, _⟩
  · rw [same, verdict]
  · rw [verdict] at none; cases none
  · rw [verdict] at waiting; cases waiting; exact absurd rfl decided

theorem issued_stays (did : honest site s e a s') {id : Str} (issued : s id ≠ none) :
    s' id ≠ none := by
  rcases honest_cases did id with same | ⟨none, _⟩ | ⟨_, _, _, now⟩
  · rwa [same]
  · exact absurd none issued
  · rw [now]; exact Option.some_ne_none _

theorem honest_issues_once : IssuesOnce (honest site) fun s id => s id ≠ none where
  fresh s request response s' id did names := by
    obtain ⟨transactionId, number⟩ := response
    subst names
    obtain ⟨unissued, rfl⟩ := did
    exact ⟨fun issued => issued unissued, by rw [Function.update_self]; exact Option.some_ne_none _⟩
  kept s e a s' id did issued := issued_stays did issued

end Service

/-- A flow agrees with the decision of RusAuth, if it is decided locally at all. -/
structure Settled (s : Verdicts) (id : Str) (flow : ExampleConfirmationFlow) : Prop where
  verdict : flow.status = .unhandled ∨ s id = some flow.status
  received : flow.callbackReceivedOn ≠ none → flow.status = .success
  waiting : flow.status = .unhandled → flow.completedOn = none

variable {ι τ : Type} {S : Signature}

/-- Replies and callbacks in flight agree with the decisions of RusAuth. -/
structure MessagesAgree (site : Site) (service : Verdicts) (tr : OuterTrace S ι) : Prop where
  replied : ∀ i request status,
    (i, ⟨.inr (.inl (.checkConfirmation request)), Except.ok ⟨status⟩⟩) ∈ tr →
    status = .unhandled ∨ service request.transactionId = some status
  sent : ∀ i request body id, (i, ⟨.inr (.inl (.sendCallback request)), ()⟩) ∈ tr →
    Accepted site request body → body.transactionId = some id → service id = some .success

section Messages
variable {site : Site} {J : Semantics S τ} {s s' : τ × Verdicts × Circuits} {tr : OuterTrace S ι}
  {i : ι} {e : (S.sum (rusAuthSig.sum hostSig)).Op} {a : (S.sum (rusAuthSig.sum hostSig)).Answer e}

theorem verdict_later (did : beside J (beside (honest site) hostEffect) s e a s') {id : Str}
    {status : CallConfirmationStatus} (decided : status ≠ .unhandled)
    (verdict : s.2.1 id = some status) : s'.2.1 id = some status := by
  match e with
  | .inl e => rw [did.2]; exact verdict
  | .inr (.inl e) => exact verdict_stays did.1.1 decided verdict
  | .inr (.inr e) => rw [did.1.2]; exact verdict

theorem settled_later (did : beside J (beside (honest site) hostEffect) s e a s') {id : Str}
    {flow : ExampleConfirmationFlow} (settled : Settled s.2.1 id flow) :
    Settled s'.2.1 id flow := by
  obtain ⟨verdict, received, waiting⟩ := settled
  refine ⟨?_, received, waiting⟩
  by_cases waits : flow.status = .unhandled
  · exact Or.inl waits
  · exact Or.inr (verdict_later did waits (verdict.resolve_left waits))

theorem messages_step (agree : MessagesAgree site s.2.1 tr)
    (did : beside J (beside (honest site) hostEffect) s e a s') :
    MessagesAgree site s'.2.1 (tr ++ [(i, ⟨e, a⟩)]) where
  replied j request status member := by
    rw [List.mem_append, List.mem_singleton] at member
    rcases member with old | new
    · by_cases waits : status = .unhandled
      · exact Or.inl waits
      · exact Or.inr (verdict_later did waits
          ((agree.replied j request status old).resolve_left waits))
    · cases new
      obtain ⟨⟨⟨same, verdict⟩, _⟩, _⟩ := did
      rw [same]
      exact Or.inr (verdict _ rfl)
  sent j request body id member accepted names := by
    rw [List.mem_append, List.mem_singleton] at member
    rcases member with old | new
    · exact verdict_later did nofun (agree.sent j request body id old accepted names)
    · cases new
      obtain ⟨⟨⟨same, success⟩, _⟩, _⟩ := did
      rw [same]
      exact success body id accepted names

end Messages

structure Faithful (site : Site) (s : App Verdicts) (tr : AppTrace ι) : Prop where
  starts : StartHistory (fun s id => s id ≠ none) s tr
  messages : MessagesAgree site s.2.1 tr
  flows : ∀ id flow, s.1.lookup id = some flow → Settled s.2.1 id flow

/-- A waiting reply is applied only to a flow that still waits. -/
def Timely : Semantics AppSig (App Verdicts) := fun s e _ _ =>
  ∀ id, e = .inl (.markManualStatus id .unhandled) →
    ∀ flow, s.1.lookup id = some flow → flow.status = .unhandled

def KeepsStatus (journal journal' : Journal) : Prop :=
  ∀ id flow, journal.lookup id = some flow → flow.status ≠ .unhandled →
    ∃ flow', journal'.lookup id = some flow' ∧ flow'.status = flow.status

section Steps
variable {site : Site} {tasks : ι → AppTask} {s s' : App Verdicts} {tr : AppTrace ι} {i : ι}

/-- A decided record agrees with the verdict of RusAuth. -/
theorem agrees_with_verdict (faithful : Faithful site s tr) {id : Str}
    {status : CallConfirmationStatus} {old : ExampleConfirmationFlow}
    (verdict : s.2.1 id = some status) (stored : s.1.lookup id = some old)
    (decided : old.status ≠ .unhandled) : status = old.status := by
  rcases (faithful.flows id old stored).verdict with waits | verdict'
  · exact absurd waits decided
  · exact Option.some.inj (verdict.symm.trans verdict')

theorem settled_write [DecidableEq ι] (faithful : Faithful site s tr) {call : StoreCall} {id : Str}
    {flow : ExampleConfirmationFlow} (writes : Writes s.1 call id flow)
    (justified : Justified site (tasks i) (own i tr) (.inl call))
    (timely : ∀ t, call = .markManualStatus t .unhandled →
      ∀ old, s.1.lookup t = some old → old.status = .unhandled) :
    Settled s.2.1 id flow ∧ ∀ old, s.1.lookup id = some old → old.status ≠ .unhandled →
      flow.status = old.status := by
  cases writes with
  | start names request created =>
    refine ⟨⟨Or.inl rfl, fun received => absurd rfl received, fun _ => rfl⟩, fun old stored => ?_⟩
    rw [start_finds_nothing faithful.starts justified names] at stored
    cases stored
  | @callback request id old names known completed received =>
    obtain ⟨_, http, _, accepted, sent, _⟩ := justified
    have success := faithful.messages.sent i http request id (mem_own.mp sent) accepted names
    exact ⟨⟨Or.inr success, fun _ => rfl, nofun⟩,
      fun old' stored decided => agrees_with_verdict faithful success stored decided⟩
  | @waiting id old known checked =>
    have waits := timely id rfl old known
    obtain ⟨_, received, waiting⟩ := faithful.flows id old known
    refine ⟨⟨Or.inl rfl, fun was => ?_, fun _ => waiting waits⟩, fun old' stored decided => ?_⟩
    · exact absurd ((received was).symm.trans waits) nofun
    · rw [known] at stored
      cases stored
      exact absurd waits decided
  | @decided id status old decides known completed checked =>
    obtain ⟨_, page, _, request, _, rfl, _, _, replied⟩ := justified
    have verdict : s.2.1 request.transactionId = some status :=
      (faithful.messages.replied i request status (mem_own.mp replied)).resolve_left decides
    refine ⟨⟨Or.inr verdict, fun was => ?_, fun waits => absurd waits decides⟩,
      fun old' stored decided => agrees_with_verdict faithful verdict stored decided⟩
    have success := (faithful.flows _ old known).received was
    have agrees := agrees_with_verdict faithful verdict known (by rw [success]; nofun)
    exact agrees.trans success

theorem journal_settled [DecidableEq ι] (faithful : Faithful site s tr) {e : AppSig.Op}
    {a : AppSig.Answer e} (justified : Justified site (tasks i) (own i tr) e)
    (did : appEffect (honest site) s e a s') (timely : Timely s e a s') :
    (∀ id flow, s'.1.lookup id = some flow → Settled s.2.1 id flow) ∧ KeepsStatus s.1 s'.1 := by
  have untouched : s'.1 = s.1 →
      (∀ id flow, s'.1.lookup id = some flow → Settled s.2.1 id flow) ∧ KeepsStatus s.1 s'.1 := by
    intro same
    rw [same]
    exact ⟨faithful.flows, fun id flow stored _ => ⟨flow, stored, rfl⟩⟩
  cases e with
  | inr e => exact untouched did.2
  | inl call =>
    rcases call_cases did.1 with same | ⟨id, flow, result, writes, wrote, _⟩
    · exact untouched same
    · obtain ⟨settled, agrees⟩ := settled_write faithful writes justified fun t is =>
        timely t (congrArg Sum.inl is)
      rw [wrote]
      refine ⟨fun id' flow' stored => ?_, fun id' flow' stored decided => ?_⟩
      · rcases lookup_insert_cases stored with ⟨rfl, rfl⟩ | ⟨_, before⟩
        · exact settled
        · exact faithful.flows id' flow' before
      · by_cases here : id' = id
        · subst here
          exact ⟨flow, AList.lookup_insert _, agrees flow' stored decided⟩
        · exact ⟨flow', by rw [AList.lookup_insert_ne here]; exact stored, rfl⟩

theorem faithful_step [DecidableEq ι] (faithful : Faithful site s tr) {e : AppSig.Op}
    {a : AppSig.Answer e} (justified : Justified site (tasks i) (own i tr) e)
    (did : appEffect (honest site) s e a s') (timely : Timely s e a s') :
    Faithful site s' (tr ++ [(i, ⟨e, a⟩)]) ∧ KeepsStatus s.1 s'.1 := by
  obtain ⟨settled, keeps⟩ := journal_settled faithful justified did timely
  refine ⟨⟨history_step honest_issues_once faithful.starts justified did,
    messages_step faithful.messages did, fun id flow stored => ?_⟩, keeps⟩
  exact settled_later did (settled id flow stored)

end Steps

section Runs
variable [DecidableEq ι]

def honestPool (site : Site) (tasks : ι → AppTask) (circuits : Circuits) : AppPool Verdicts ι :=
  appPool site tasks (∅, fun _ => none, circuits)

abbrev HonestExec (site : Site) : AppPool Verdicts ι → AppTrace ι → AppPool Verdicts ι → Prop :=
  Exec fun _ => appEffect (honest site)

abbrev TimelyExec (site : Site) : AppPool Verdicts ι → AppTrace ι → AppPool Verdicts ι → Prop :=
  Exec fun _ s e a s' => appEffect (honest site) s e a s' ∧ Timely s e a s'

variable {site : Site} {tasks : ι → AppTask} {circuits : Circuits}

theorem timely_run_faithful {tr : AppTrace ι} {q : AppPool Verdicts ι}
    (run : TimelyExec site (honestPool site tasks circuits) tr q) : Faithful site q.shared tr := by
  refine exec_invariant (fun i => task_obeys site (tasks i)) ?_ ?_ run
  · refine ⟨start_history (honest_issues_once : IssuesOnce (honest site) _) .nil, ⟨?_, ?_⟩, ?_⟩
    · rintro i request status ⟨⟩
    · rintro i request body id ⟨⟩
    · intro id flow stored
      simp [honestPool, appPool, AList.lookup_empty] at stored
  · intro s tr i e a s' faithful justified did
    exact (faithful_step faithful justified did.1 did.2).1

theorem timely_run_keeps {xs ys : AppTrace ι} {m q : AppPool Verdicts ι}
    (before : TimelyExec site (honestPool site tasks circuits) xs m)
    (run : TimelyExec site m ys q) :
    KeepsStatus m.shared.1 q.shared.1 := by
  induction run with
  | nil => exact fun id flow stored _ => ⟨flow, stored, rfl⟩
  | @snoc r q ys l sofar last ih =>
    intro id flow stored decided
    obtain ⟨flow', stored', same⟩ := ih id flow stored decided
    have reached := exec_trans before sofar
    have justified := exec_obeys reached last (task_obeys site (tasks l.1))
    cases last with
    | act ready did =>
      have step := (faithful_step (timely_run_faithful reached) justified did.1 did.2).2
      obtain ⟨flow'', stored'', same'⟩ := step id flow' stored' (by rwa [same])
      exact ⟨flow'', stored'', same'.trans same⟩

/-- The verdicts of a run: no local status changes once it is decided, a recorded
    callback means Success, and what still waits is not completed. -/
structure KeepsVerdicts (site : Site) (tasks : ι → AppTask) (circuits : Circuits)
    (tr : AppTrace ι) (q : AppPool Verdicts ι) : Prop where
  kept : ∀ xs ys zs m m', tr = xs ++ ys ++ zs →
    HonestExec site (honestPool site tasks circuits) xs m → HonestExec site m ys m' →
    HonestExec site m' zs q → KeepsStatus m.shared.1 m'.shared.1
  received : ∀ xs ys m, tr = xs ++ ys →
    HonestExec site (honestPool site tasks circuits) xs m → HonestExec site m ys q →
    ∀ id flow, m.shared.1.lookup id = some flow →
      flow.callbackReceivedOn ≠ none → flow.status = .success
  waiting : ∀ xs ys m, tr = xs ++ ys →
    HonestExec site (honestPool site tasks circuits) xs m → HonestExec site m ys q →
    ∀ id flow, m.shared.1.lookup id = some flow →
      flow.status = .unhandled → flow.completedOn = none

def NoLateReply (site : Site) (tasks : ι → AppTask) (circuits : Circuits)
    (tr : AppTrace ι) (q : AppPool Verdicts ι) : Prop :=
  ∀ m l m',
    Performs (fun _ => appEffect (honest site)) (honestPool site tasks circuits) tr q m l m' →
    Timely m.shared l.2.1 l.2.2 m'.shared

theorem late_reply_resets {site : Site} {s s' : App Verdicts} {id : Str}
    {flow : ExampleConfirmationFlow} {a : callSig.Answer (.markManualStatus id .unhandled)}
    (did : appEffect (honest site) s (.inl (.markManualStatus id .unhandled)) a s')
    (stored : s.1.lookup id = some flow) :
    ∃ flow', s'.1.lookup id = some flow' ∧ flow'.status = .unhandled := by
  obtain ⟨⟨clock, effect⟩, _⟩ := did
  rw [on_journal_manual, stored] at effect
  have wrote : s'.1 = s.1.insert id (manualWith .unhandled clock flow) :=
    (Prod.mk.inj effect).2.symm
  exact ⟨_, by rw [wrote]; exact AList.lookup_insert _, rfl⟩

/-- Every run keeps its verdicts exactly when no reply comes too late. -/
theorem verdicts_kept_iff (tr : AppTrace ι) (q : AppPool Verdicts ι) :
    KeepsVerdicts site tasks circuits tr q ↔ NoLateReply site tasks circuits tr q := by
  constructor
  · rintro ⟨kept, _, _⟩ m l m' ⟨xs, ys, whole, before, step, after⟩ id is flow stored
    by_contra decided
    have keeps := kept xs [l] ys m m' (by rw [whole]; simp) before (.snoc .nil step) after
    cases step with
    | @act i e next a s' ready did =>
      obtain rfl : e = _ := is
      obtain ⟨flow', stored', waits⟩ := late_reply_resets did stored
      obtain ⟨flow'', stored'', same⟩ := keeps id flow stored decided
      rw [stored'] at stored''
      cases stored''
      exact decided (same ▸ waits)
  · intro noLate
    have timelyPart : ∀ xs ys zs m m', tr = xs ++ ys ++ zs →
        HonestExec site (honestPool site tasks circuits) xs m → HonestExec site m ys m' →
        HonestExec site m' zs q → TimelyExec site m ys m' := by
      intro xs ys zs m m' whole before mid after
      refine exec_restrict mid fun a l b performs => noLate a l b ?_
      rw [whole, List.append_assoc]
      exact performs_after before (performs_then performs after)
    have timelyStart : ∀ xs ys m, tr = xs ++ ys →
        HonestExec site (honestPool site tasks circuits) xs m → HonestExec site m ys q →
        TimelyExec site (honestPool site tasks circuits) xs m :=
      fun xs ys m whole before after => timelyPart [] xs ys _ m whole .nil before after
    refine ⟨?_, ?_, ?_⟩
    · intro xs ys zs m m' whole before mid after
      have start := timelyStart xs (ys ++ zs) m (by rw [whole, List.append_assoc]) before
        (exec_trans mid after)
      exact timely_run_keeps start (timelyPart xs ys zs m m' whole before mid after)
    · intro xs ys m whole before after id flow stored
      have faithful := timely_run_faithful (timelyStart xs ys m whole before after)
      exact (faithful.flows id flow stored).received
    · intro xs ys m whole before after id flow stored
      have faithful := timely_run_faithful (timelyStart xs ys m whole before after)
      exact (faithful.flows id flow stored).waiting

end Runs

namespace Sample

def service : (e : rusAuthSig.Op) → Verdicts → rusAuthSig.Answer e × Verdicts
  | .callToConfirm _, s => (.ok ⟨some [116], none⟩, Function.update s [116] (some .unhandled))
  | .checkConfirmation request, s =>
    (match s request.transactionId with
      | some status => .ok ⟨status⟩
      | none => .error (.external []), s)
  | .decide id status, s => ((), Function.update s id (some status))
  | .sendCallback _, s => ((), s)

def possible {S : Signature} : (e : (S.sum (rusAuthSig.sum hostSig)).Op) → App Verdicts → Bool
  | .inr (.inl (.callToConfirm _)), s => s.2.1 [116] == none
  | .inr (.inl (.decide id status)), s => s.2.1 id == some .unhandled && status != .unhandled
  | .inr (.inl (.sendCallback request)), s =>
    s.2.1 [116] == some .success && request.body.all fun body => body.transactionId == some [116]
  | _, _ => true

def withStore {S : Signature} (f : (e : S.Op) → Journal → S.Answer e × Journal) :
    (e : (S.sum (rusAuthSig.sum hostSig)).Op) → App Verdicts →
      (S.sum (rusAuthSig.sum hostSig)).Answer e × App Verdicts :=
  Prog.alongside f (Prog.alongside service (hostAnswer fun _ => .ok ()))

theorem honest_with_store {S : Signature} {f : (e : S.Op) → Journal → S.Answer e × Journal}
    {J : Semantics S Journal} (store : ∀ e journal, J journal e (f e journal).1 (f e journal).2)
    (e : (S.sum (rusAuthSig.sum hostSig)).Op) (s : App Verdicts) (can : possible e s = true) :
    beside J (beside (honest site) hostEffect) s e (withStore f e s).1 (withStore f e s).2 := by
  match e with
  | .inl e => exact ⟨store e s.1, rfl⟩
  | .inr (.inr e) => exact ⟨⟨⟨_, rfl⟩, rfl⟩, rfl⟩
  | .inr (.inl (.callToConfirm request)) =>
    simp only [possible, beq_iff_eq] at can
    exact ⟨⟨⟨can, rfl⟩, rfl⟩, rfl⟩
  | .inr (.inl (.checkConfirmation request)) =>
    refine ⟨⟨⟨rfl, fun response reply => ?_⟩, rfl⟩, rfl⟩
    simp only [withStore, Prog.alongside, service] at reply
    cases held : s.2.1 request.transactionId with
    | none => rw [held] at reply; cases reply
    | some status => rw [held] at reply; cases reply; rfl
  | .inr (.inl (.decide id status)) =>
    simp only [possible, Bool.and_eq_true, beq_iff_eq, bne_iff_ne] at can
    exact ⟨⟨⟨can.1, can.2, rfl⟩, rfl⟩, rfl⟩
  | .inr (.inl (.sendCallback request)) =>
    simp only [possible, Bool.and_eq_true, beq_iff_eq] at can
    obtain ⟨success, named⟩ := can
    refine ⟨⟨⟨rfl, fun body id accepted names => ?_⟩, rfl⟩, rfl⟩
    rw [accepted.binds, Option.all_some, beq_iff_eq, names, Option.some.injEq] at named
    rw [named]
    exact success

def answers : (e : AppSig.Op) → App Verdicts → AppSig.Answer e × App Verdicts :=
  withStore (S := callSig) fun call journal => call.onJournal (fun _ => 0) journal

theorem honest_answers (e : AppSig.Op) (s : App Verdicts) (can : possible e s = true) :
    appEffect (honest site) s e (answers e s).1 (answers e s).2 :=
  honest_with_store (S := callSig) (J := callEffect) (fun _ _ => ⟨_, rfl⟩) e s can

def fineAnswers : (e : FineSig.Op) → App Verdicts → FineSig.Answer e × App Verdicts :=
  withStore store

theorem honest_fine_answers (e : FineSig.Op) (s : App Verdicts) (can : possible e s = true) :
    fineEffect (honest site) s e (fineAnswers e s).1 (fineAnswers e s).2 :=
  honest_with_store store_answers e s can

end Sample

namespace LateReply

inductive Party where
  | user
  | check
  | verdict
  | webhook
  deriving DecidableEq

def tasks : Party → AppTask
  | .user => .submit Sample.page
  | .check => .checkStatus Sample.page
  | .verdict => .decide [116] .success
  | .webhook => .callback (Sample.callback [55])

def schedule : List Party :=
  List.replicate 12 .user ++ List.replicate 7 .check ++ [.verdict, .webhook, .webhook, .webhook] ++
    [.check, .check]

def after : AppTrace Party × AppPool Verdicts Party :=
  replay Sample.answers (honestPool Sample.site tasks .initial) schedule

theorem run : HonestExec Sample.site (honestPool Sample.site tasks .initial) after.1 after.2 :=
  replay_exec_of_possible (fun _ => Sample.honest_answers) _ schedule (by decide)

def stored : ExampleConfirmationFlow :=
  manualUpdate (callbackUpdate (newFlow [116] ⟨some [116], none⟩ ⟨[], 10, [], lit "secret"⟩ 0) 0 0)
    .unhandled (some 0) 0

end LateReply

/-- An honest run at whose end a confirmed flow waits again. -/
theorem late_reply_loses_verdict :
    HonestExec Sample.site (honestPool Sample.site LateReply.tasks .initial) LateReply.after.1
      LateReply.after.2 ∧
    ¬ KeepsVerdicts Sample.site LateReply.tasks .initial LateReply.after.1 LateReply.after.2 := by
  refine ⟨LateReply.run, fun verdicts => ?_⟩
  have stored : LateReply.after.2.shared.1.lookup [116] = some LateReply.stored := by decide
  have success := verdicts.received LateReply.after.1 [] LateReply.after.2 (List.append_nil _).symm
    LateReply.run .nil [116] LateReply.stored stored nofun
  exact absurd success nofun

end RusAuthExample
