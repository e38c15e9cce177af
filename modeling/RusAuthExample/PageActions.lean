import RusAuthExample.ApplicationRuns

/-!
A page action that runs to its end with nothing in between. The client may
answer or fail as it likes. The exits lie in three layers, the page, the facade
and the store, and on each of them the messages, the busy flag and the journal
have to fit together.
-/
namespace RusAuthExample
open Utf16Text OperationPrograms InterleavedRuns KeyedMemory

variable {ς : Type}

/-- The host, the client and the clock when nobody else takes a step. -/
def alone (clock : Nat → DateTime) (client : (e : rusAuthSig.Op) → ς → rusAuthSig.Answer e × ς)
    (renders : Page → Except Exn Unit) : (e : AppSig.Op) → App ς → AppSig.Answer e × App ς :=
  Prog.alongside (S := callSig) (fun call journal => call.onJournal clock journal)
    (Prog.alongside client (hostAnswer renders))

inductive PageAction where
  | submit
  | checkStatus
  deriving DecidableEq, Repr

namespace PageAction

def program (site : Site) (page : Page) : PageAction → AppM Unit
  | .submit => submitAsync site page
  | .checkStatus => checkStatusAsync page

/-- The call of the facade, with the form as it is when the action begins. -/
def facadeCall (site : Site) (page : Page) (model : AuthorizeFormModel) :
    PageAction → AppM ExampleConfirmationFlow
  | .submit => startConfirmationAsync site page.session model.phoneNumber
      (buildCallbackUrl site (site.baseUri page.session)) model.expirationMinute
  | .checkStatus => checkCurrentConfirmationAsync page.session model.phoneNumber

end PageAction

namespace Circuits

def onSession (c : Circuits) (session : SessionId)
    (f : ExampleAuthSession → ExampleAuthSession) : Circuits :=
  { c with sessions := Function.update c.sessions session (f (c.sessions session)) }

def onPage (c : Circuits) (page : Page) (f : AuthorizePage → AuthorizePage) : Circuits :=
  { c with pages := Function.update c.pages page (f (c.pages page)) }

@[simp] theorem on_session_on_session (c : Circuits) (session : SessionId)
    (f g : ExampleAuthSession → ExampleAuthSession) :
    (c.onSession session f).onSession session g = c.onSession session fun s => g (f s) := by
  simp [onSession]

@[simp] theorem on_page_on_page (c : Circuits) (page : Page) (f g : AuthorizePage → AuthorizePage) :
    (c.onPage page f).onPage page g = c.onPage page fun p => g (f p) := by
  simp [onPage]

@[simp] theorem on_session_sessions (c : Circuits) (session : SessionId)
    (f : ExampleAuthSession → ExampleAuthSession) :
    (c.onSession session f).sessions session = f (c.sessions session) := by
  simp [onSession]

@[simp] theorem on_page_pages (c : Circuits) (page : Page) (f : AuthorizePage → AuthorizePage) :
    (c.onPage page f).pages page = f (c.pages page) := by
  simp [onPage]

@[simp] theorem on_session_pages (c : Circuits) (session : SessionId)
    (f : ExampleAuthSession → ExampleAuthSession) : (c.onSession session f).pages = c.pages := rfl

@[simp] theorem on_page_sessions (c : Circuits) (page : Page) (f : AuthorizePage → AuthorizePage) :
    (c.onPage page f).sessions = c.sessions := rfl

end Circuits

/-- The circuit when the action of the page calls the facade. -/
def begun (page : Page) (c : Circuits) : Circuits :=
  (c.onPage page fun p => { p with isBusy := true, localError := none }).onSession page.session
    .clearMessages

def idle (page : Page) (c : Circuits) : Circuits :=
  c.onPage page fun p => { p with isBusy := false }

def reported (page : Page) (x : Exn) (c : Circuits) : Circuits :=
  (c.onSession page.session fun s => s.setError x.message).onPage page
    fun p => { p with localError := some x.message }

def flowOf (journal : Journal) (session : ExampleAuthSession) : Option ExampleConfirmationFlow :=
  match session.currentTransactionId with
  | none => none
  | some id => if isBlank id then none else journal.lookup id

def shownId (journal : Journal) (session : ExampleAuthSession) : Option Str :=
  match flowOf journal session with
  | none => session.currentTransactionId
  | some flow => some flow.transactionId

section Alone
variable (clock : Nat → DateTime) (client : (e : rusAuthSig.Op) → ς → rusAuthSig.Answer e × ς)
  (renders : Page → Except Exn Unit) (site : Site) (journal : Journal) (service : ς) (c : Circuits)

theorem get_current_flow_alone (session : SessionId) :
    (getCurrentFlow session).exec (alone clock client renders) (journal, service, c) =
      (.ok (flowOf journal (c.sessions session)), (journal, service, c)) := by
  have step : (getCurrentFlow session).exec (alone clock client renders) (journal, service, c) =
      (match (c.sessions session).currentTransactionId with
        | none => Prog.ret none
        | some id => if isBlank id then Prog.ret none else callStore (.get id)).exec
        (alone clock client renders) (journal, service, c) := rfl
  rw [step, flowOf]
  cases (c.sessions session).currentTransactionId with
  | none => rfl
  | some id =>
    dsimp only
    split <;> rfl

theorem shown_alone (session : SessionId) :
    (shownTransactionId session).exec (alone clock client renders) (journal, service, c) =
      (.ok (shownId journal (c.sessions session)), (journal, service, c)) := by
  rw [shownTransactionId, Prog.bind_eq, Prog.exec_bind, get_current_flow_alone, shownId]
  cases flowOf journal (c.sessions session) <;> rfl

/-- With nothing between them two assignments are one update of the session. -/
theorem assign_alone (session : SessionId) (first second : Assignment) :
    ((assign session first).bind fun _ => assign session second).exec (alone clock client renders)
        (journal, service, c) =
      (.ok (), (journal, service, c.onSession session fun s => second.apply (first.apply s))) := by
  have step : ((assign session first).bind fun _ => assign session second).exec
      (alone clock client renders) (journal, service, c) =
      (.ok (), (journal, service,
        (c.onSession session first.apply).onSession session second.apply)) := rfl
  rw [step, Circuits.on_session_on_session]

theorem track_transaction_alone (session : SessionId) (id : Str) :
    (trackTransaction session id).exec (alone clock client renders) (journal, service, c) =
      (.ok (), (journal, service, c.onSession session fun s => s.trackTransaction id)) :=
  assign_alone clock client renders journal service c session _ _

theorem set_info_alone (session : SessionId) (message : Str) :
    (setInfo session message).exec (alone clock client renders) (journal, service, c) =
      (.ok (), (journal, service, c.onSession session fun s => s.setInfo message)) :=
  assign_alone clock client renders journal service c session _ _

theorem set_error_alone (session : SessionId) (message : Str) :
    (setError session message).exec (alone clock client renders) (journal, service, c) =
      (.ok (), (journal, service, c.onSession session fun s => s.setError message)) :=
  assign_alone clock client renders journal service c session _ _

theorem clear_messages_alone (session : SessionId) :
    (clearMessages session).exec (alone clock client renders) (journal, service, c) =
      (.ok (), (journal, service, c.onSession session .clearMessages)) :=
  assign_alone clock client renders journal service c session _ _

/-- A start alone: the client fails, the id is null, or the flow is stored,
    tracked and announced. -/
theorem start_alone (session : SessionId) (phoneNumber callbackUrl : Str) (expirationMinute : Int) :
    (startConfirmationAsync site session phoneNumber callbackUrl expirationMinute).exec
        (alone clock client renders) (journal, service, c) =
      let request := callToConfirmRequest site phoneNumber callbackUrl expirationMinute
      match client (.callToConfirm request) service with
      | ((.error x : Except Exn RusAuthCallToConfirmResponse), service') =>
        (.error x, (journal, service', c))
      | (.ok response, service') =>
        match response.transactionId with
        | none => (.error .argumentNull, (journal, service', c))
        | some id =>
          (.ok (newFlow id response request (clock 0)),
            (journal.insert id (newFlow id response request (clock 0)), service',
              c.onSession session fun s => (s.trackTransaction id).setInfo startedMessage)) := by
  let request := callToConfirmRequest site phoneNumber callbackUrl expirationMinute
  let rest : RusAuthCallToConfirmResponse → AppM ExampleConfirmationFlow := fun response => do
    let flow ← callStore (.start response request)
    trackTransaction session flow.transactionId
    setInfo session startedMessage
    return flow
  have step : (startConfirmationAsync site session phoneNumber callbackUrl expirationMinute).exec
      (alone clock client renders) (journal, service, c) =
      ((Prog.ofExcept (client (.callToConfirm request) service).1).bind rest).exec
        (alone clock client renders) (journal, (client (.callToConfirm request) service).2, c) := rfl
  rw [step]
  dsimp only
  rcases client (.callToConfirm request) service with ⟨x | ⟨transactionId, number⟩, service'⟩
  · rfl
  · cases transactionId with
    | none => rfl
    | some id =>
      let flow := newFlow id ⟨some id, number⟩ request (clock 0)
      have stored : (rest ⟨some id, number⟩).exec (alone clock client renders)
          (journal, service', c) =
          ((trackTransaction session id).bind fun _ => (setInfo session startedMessage).bind
            fun _ => .ret flow).exec (alone clock client renders)
              (journal.insert id flow, service', c) := rfl
      have told : ((trackTransaction session id).bind fun _ => (setInfo session startedMessage).bind
            fun _ => .ret flow).exec (alone clock client renders)
              (journal.insert id flow, service', c) =
          (.ok flow, (journal.insert id flow, service',
            c.onSession session fun s => (s.trackTransaction id).setInfo startedMessage)) := by
        simp only [Prog.exec_bind, track_transaction_alone, set_info_alone,
          Circuits.on_session_on_session]
        rfl
      exact stored.trans told

theorem mark_alone (session : SessionId) (id : Str) (status : CallConfirmationStatus) :
    ((callStore (.markManualStatus id status)).bind (announceStatus session status)).exec
        (alone clock client renders) (journal, service, c) =
      match journal.lookup id with
      | none => (.error (.invalidOperation notInJournalMessage), (journal, service, c))
      | some flow =>
        (.ok (manualWith status clock flow),
          (journal.insert id (manualWith status clock flow), service,
            c.onSession session fun s => s.setInfo (statusMessage status))) := by
  let marked := (StoreCall.markManualStatus id status).onJournal clock journal
  have marks : ((callStore (.markManualStatus id status)).bind (announceStatus session status)).exec
      (alone clock client renders) (journal, service, c) =
      ((Prog.ofExcept marked.1).bind (announceStatus session status)).exec
        (alone clock client renders) (marked.2, service, c) := rfl
  rw [marks]
  simp only [marked, on_journal_manual]
  cases journal.lookup id with
  | none => rfl
  | some flow =>
    have told : ((setInfo session (statusMessage status)).bind fun _ =>
        .ret (manualWith status clock flow)).exec (alone clock client renders)
          (journal.insert id (manualWith status clock flow), service, c) =
        (.ok (manualWith status clock flow),
          (journal.insert id (manualWith status clock flow), service,
            c.onSession session fun s => s.setInfo (statusMessage status))) := by
      simp only [Prog.exec_bind, set_info_alone]
      rfl
    exact told

/-- A check alone: nothing is tracked, the client fails, the journal lacks the
    transaction, or its record is updated and the status announced. -/
theorem check_alone (session : SessionId) (phoneNumber : Str) :
    (checkCurrentConfirmationAsync session phoneNumber).exec (alone clock client renders)
        (journal, service, c) =
      match (c.sessions session).currentTransactionId with
      | none => (.error (.invalidOperation noTransactionMessage), (journal, service, c))
      | some id =>
        match client (.checkConfirmation ⟨phoneNumber, id⟩) service with
        | ((.error x : Except Exn RusCheckConfirmationResponse), service') =>
          (.error x, (journal, service', c))
        | (.ok response, service') =>
          match journal.lookup id with
          | none => (.error (.invalidOperation notInJournalMessage), (journal, service', c))
          | some flow =>
            (.ok (manualWith response.status clock flow),
              (journal.insert id (manualWith response.status clock flow), service',
                c.onSession session fun s => s.setInfo (statusMessage response.status))) := by
  let marks : Str → RusCheckConfirmationResponse → AppM ExampleConfirmationFlow :=
    fun id response => (callStore (.markManualStatus id response.status)).bind
      (announceStatus session response.status)
  obtain ⟨next, program, untracked, asks⟩ : ∃ next,
      checkCurrentConfirmationAsync session phoneNumber =
        (currentTransactionId session).bind next ∧
      next none = throw (.invalidOperation noTransactionMessage) ∧
      ∀ id, next (some id) = (checkConfirmationAsync ⟨phoneNumber, id⟩).bind (marks id) :=
    ⟨_, check_eq session phoneNumber, rfl, fun _ => rfl⟩
  have step : ((currentTransactionId session).bind next).exec (alone clock client renders)
      (journal, service, c) = (next (c.sessions session).currentTransactionId).exec
        (alone clock client renders) (journal, service, c) := rfl
  rw [program, step]
  cases (c.sessions session).currentTransactionId with
  | none => rw [untracked]; rfl
  | some id =>
    have answered : ((checkConfirmationAsync ⟨phoneNumber, id⟩).bind (marks id)).exec
        (alone clock client renders) (journal, service, c) =
        ((Prog.ofExcept (client (.checkConfirmation ⟨phoneNumber, id⟩) service).1).bind
          (marks id)).exec (alone clock client renders)
          (journal, (client (.checkConfirmation ⟨phoneNumber, id⟩) service).2, c) := rfl
    dsimp only
    rw [asks, answered]
    rcases client (.checkConfirmation ⟨phoneNumber, id⟩) service with ⟨x | response, service'⟩
    · rfl
    · exact mark_alone clock client renders journal service' c session id response.status

theorem execute_alone (page : Page) (action : AppM Unit) :
    (executeAsync page action).exec (alone clock client renders) (journal, service, c) =
      match action.exec (alone clock client renders) (journal, service, begun page c) with
      | (.ok (), (journal', service', c')) => (.ok (), (journal', service', idle page c'))
      | (.error x, (journal', service', c')) =>
        (.ok (), (journal', service', idle page (reported page x c'))) := by
  have step : (executeAsync page action).exec (alone clock client renders) (journal, service, c) =
      ((clearMessages page.session).bind fun _ => (attempted page action).ensure
        (setIsBusy page false)).exec (alone clock client renders)
          (journal, service, (c.onPage page fun p => { p with localError := none }).onPage page
            fun p => { p with isBusy := true }) := rfl
  rw [Circuits.on_page_on_page] at step
  rw [step, Prog.exec_bind, clear_messages_alone]
  dsimp only
  rw [Prog.ensure, Prog.exec_bind, Prog.exec_attempt]
  simp only [attempted, Prog.exec_recover, Prog.exec_bind]
  have start : (c.onPage page fun p => { p with isBusy := true, localError := none }).onSession
      page.session ExampleAuthSession.clearMessages = begun page c := rfl
  rw [start]
  rcases action.exec (alone clock client renders) (journal, service, begun page c) with
    ⟨x | ⟨⟩, journal', service', c'⟩
  · simp only [set_error_alone]
    rfl
  · simp only [shown_alone]
    rfl

/-- The action of a page comes down to its call of the facade. -/
theorem action_alone (page : Page) (action : PageAction) :
    (action.program site page).exec (alone clock client renders) (journal, service, c) =
      match (action.facadeCall site page (c.pages page).model).exec (alone clock client renders)
        (journal, service, begun page c) with
      | (.ok _, (journal', service', c')) => (.ok (), (journal', service', idle page c'))
      | (.error x, (journal', service', c')) =>
        (.ok (), (journal', service', idle page (reported page x c'))) := by
  let body : AppM Unit := (formModel page).bind fun model =>
    (action.facadeCall site page model).bind fun _ => .ret ()
  have program : action.program site page = executeAsync page body := by cases action <;> rfl
  have model : ((begun page c).pages page).model = (c.pages page).model := by simp [begun]
  have calls : body.exec (alone clock client renders) (journal, service, begun page c) =
      ((action.facadeCall site page ((begun page c).pages page).model).bind fun _ => .ret ()).exec
        (alone clock client renders) (journal, service, begun page c) := rfl
  rw [program, execute_alone, calls, model, Prog.exec_bind]
  rcases (action.facadeCall site page (c.pages page).model).exec (alone clock client renders)
    (journal, service, begun page c) with ⟨x | flow, s⟩ <;> rfl

end Alone

def facadeOutcome (clock : Nat → DateTime)
    (client : (e : rusAuthSig.Op) → ς → rusAuthSig.Answer e × ς)
    (renders : Page → Except Exn Unit) (site : Site) (page : Page) (action : PageAction)
    (s : App ς) : Except Exn ExampleConfirmationFlow :=
  ((action.facadeCall site page (s.2.2.pages page).model).exec (alone clock client renders)
    (s.1, s.2.1, begun page s.2.2)).1

structure WholeAction (page : Page) (action : PageAction)
    (outcome : Except Exn ExampleConfirmationFlow) (s s' : App ς) : Prop where
  idle : (s'.2.2.pages page).isBusy = false
  oneMessage : ((s'.2.2.sessions page.session).infoMessage = none ↔
    (s'.2.2.sessions page.session).errorMessage ≠ none)
  copied : (s'.2.2.pages page).localError = (s'.2.2.sessions page.session).errorMessage
  thrown : (s'.2.2.sessions page.session).errorMessage ≠ none ↔ ∃ x, outcome = .error x
  untouched : (∃ x, outcome = .error x) → s'.1 = s.1 ∧
    (s'.2.2.sessions page.session).currentTransactionId =
      (s.2.2.sessions page.session).currentTransactionId
  submitted : ∀ flow, outcome = .ok flow → action = .submit →
    (s'.2.2.sessions page.session).currentTransactionId = some flow.transactionId ∧
    ∀ id, id ≠ flow.transactionId → s'.1.lookup id = s.1.lookup id
  checked : ∀ flow, outcome = .ok flow → action = .checkStatus →
    (s'.2.2.sessions page.session).currentTransactionId =
      (s.2.2.sessions page.session).currentTransactionId ∧
    ∃ id old status completedOn lastManualCheckOn,
      (s.2.2.sessions page.session).currentTransactionId = some id ∧ s.1.lookup id = some old ∧
      s'.1.lookup id = some { old with
        status := status
        completedOn := completedOn
        lastManualCheckOn := lastManualCheckOn } ∧
      ∀ id', id' ≠ id → s'.1.lookup id' = s.1.lookup id'

theorem whole_of_error {page : Page} {action : PageAction} {x : Exn} {journal : Journal}
    {service service' : ς} {c : Circuits} :
    WholeAction page action (.error x) (journal, service, c)
      (journal, service', idle page (reported page x (begun page c))) := by
  constructor
  case submitted => nofun
  case checked => nofun
  all_goals simp [idle, reported, begun, ExampleAuthSession.setError,
    ExampleAuthSession.clearMessages]

theorem whole_of_started {page : Page} {id : Str} {response : RusAuthCallToConfirmResponse}
    {request : RusAuthCallToConfirmRequest} {created : DateTime} {journal : Journal}
    {service service' : ς} {c : Circuits} :
    WholeAction page .submit (.ok (newFlow id response request created)) (journal, service, c)
      (journal.insert id (newFlow id response request created), service',
        idle page ((begun page c).onSession page.session
          fun s => (s.trackTransaction id).setInfo startedMessage)) := by
  constructor
  case untouched => nofun
  case checked => nofun
  case submitted =>
    intro flow ok _
    cases ok
    constructor
    · simp [idle, newFlow, ExampleAuthSession.setInfo, ExampleAuthSession.trackTransaction]
    · exact fun other different => AList.lookup_insert_ne different
  all_goals simp [idle, begun, ExampleAuthSession.setInfo, ExampleAuthSession.trackTransaction]

theorem manual_with_fields (status : CallConfirmationStatus) (clock : Nat → DateTime)
    (flow : ExampleConfirmationFlow) : ∃ completedOn lastManualCheckOn,
      manualWith status clock flow = { flow with
        status := status
        completedOn := completedOn
        lastManualCheckOn := lastManualCheckOn } := by
  by_cases waiting : status = .unhandled
  · exact ⟨flow.completedOn, some (clock 0), by rw [manualWith, if_pos waiting]; rfl⟩
  · exact ⟨some (clock 0), some (clock 1), by rw [manualWith, if_neg waiting]; rfl⟩

theorem whole_of_checked {page : Page} {id : Str} {status : CallConfirmationStatus}
    {clock : Nat → DateTime} {flow : ExampleConfirmationFlow} {journal : Journal}
    {service service' : ς} {c : Circuits}
    (tracked : (c.sessions page.session).currentTransactionId = some id)
    (stored : journal.lookup id = some flow) :
    WholeAction page .checkStatus (.ok (manualWith status clock flow)) (journal, service, c)
      (journal.insert id (manualWith status clock flow), service',
        idle page ((begun page c).onSession page.session
          fun s => s.setInfo (statusMessage status))) := by
  constructor
  case untouched => nofun
  case submitted => nofun
  case checked =>
    intro _ _ _
    obtain ⟨completedOn, lastManualCheckOn, fields⟩ := manual_with_fields status clock flow
    constructor
    · simp [idle, begun, ExampleAuthSession.setInfo, ExampleAuthSession.clearMessages]
    · refine ⟨id, flow, status, completedOn, lastManualCheckOn, tracked, stored, ?_, ?_⟩
      · rw [AList.lookup_insert, fields]
      · exact fun other different => AList.lookup_insert_ne different
  all_goals simp [idle, begun, ExampleAuthSession.setInfo, ExampleAuthSession.clearMessages]

end RusAuthExample
