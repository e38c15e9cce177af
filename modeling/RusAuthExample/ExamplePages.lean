import RusAuthExample.AuthFacade

/-!
The two interactive pages, the callback endpoint with its filter, and the tasks
the application is made of. A page's handler is the outside code of the
notifier: putting it in its place turns the controller's program into one over
the operations of the whole application.
-/
namespace RusAuthExample
open Utf16Text OperationPrograms

def setLocalError (page : Page) (localError : Option Str) : AppM Unit :=
  atHost (.setLocalError page localError)

def setIsBusy (page : Page) (isBusy : Bool) : AppM Unit := atHost (.setIsBusy page isBusy)

def formModel (page : Page) : AppM AuthorizeFormModel := atHost (.model page)

/-- InvokeAsync(StateHasChanged), which may fail once the page is gone. -/
def stateHasChanged (page : Page) : AppM Unit :=
  .op (.inr (.inr (.stateHasChanged page))) Prog.ofExcept

/-- `CurrentFlow?.TransactionId ?? Session.CurrentTransactionId` -/
def shownTransactionId (session : SessionId) : AppM (Option Str) := do
  match ← getCurrentFlow session with
  | some flow => return some flow.transactionId
  | none => currentTransactionId session

/-- The finally branch runs after the handler, which cannot fail. -/
def executeAsync (page : Page) (action : AppM Unit) : AppM Unit := do
  setLocalError page none
  setIsBusy page true
  clearMessages page.session
  let attempted : AppM Unit :=
    tryCatch
      (do
        action
        -- read for the log only
        let _ ← shownTransactionId page.session)
      fun ex => do
        setError page.session ex.message
        setLocalError page (some ex.message)
  attempted.ensure (setIsBusy page false)

/-- An action with its catch. -/
def attempted (page : Page) (action : AppM Unit) : AppM Unit :=
  (action.bind fun _ => (shownTransactionId page.session).bind fun _ => .ret ()).recover fun ex =>
    (setError page.session ex.message).bind
      fun _ => setLocalError page (some ex.message)

theorem execute_eq (page : Page) (action : AppM Unit) :
    executeAsync page action = (setLocalError page none).bind fun _ =>
      (setIsBusy page true).bind fun _ => (clearMessages page.session).bind fun _ =>
        (attempted page action).ensure (setIsBusy page false) := rfl

def submitAsync (site : Site) (page : Page) : AppM Unit :=
  executeAsync page do
    let model ← formModel page
    let _ ← startConfirmationAsync site page.session model.phoneNumber
      (buildCallbackUrl site (site.baseUri page.session)) model.expirationMinute

def checkStatusAsync (page : Page) : AppM Unit :=
  executeAsync page do
    let model ← formModel page
    let _ ← checkCurrentConfirmationAsync page.session model.phoneNumber

def refreshAsync (page : Page) : AppM Unit := do
  clearMessages page.session
  if page.kind = .authorize then setLocalError page none
  stateHasChanged page

def onInitializedAsync (page : Page) : AppM Unit := atHost (.addHandler page)

def dispose (page : Page) : AppM Unit := atHost (.removeHandler page)

def updatedMessage : Str := lit "Вебхук получен. Статус подтверждения обновлён автоматически."

def callbackMessage (transactionId : Str) : Str :=
  lit "Получён callback по транзакции " ++ transactionId ++ lit ". Журнал обновлён."

def onConfirmationUpdatedAsync (page : Page) (update : ExampleConfirmationUpdate) : AppM Unit :=
  match page.kind with
  | .account => do
    setInfo page.session (callbackMessage update.transactionId)
    stateHasChanged page
  | .authorize => do
    let currentTransactionId ← shownTransactionId page.session
    if some update.transactionId ≠ currentTransactionId then return
    setInfo page.session updatedMessage
    setLocalError page none
    stateHasChanged page

/-- The notifier's operations with the pages as its handlers. Both handlers are
    async methods: an exception faults their task. -/
def invokePage (page : Page) (update : ExampleConfirmationUpdate) : AppM HandlerOutcome :=
  (onConfirmationUpdatedAsync page update).attempt.bind fun
    | .ok () => .ret .completes
    | .error x => .ret (.faultsTask x)

def withPages : (e : (callSig.sum (notifierSig Page)).Op) →
    AppM ((callSig.sum (notifierSig Page)).Answer e)
  | .inl call => .op (.inl call) .ret
  | .inr .confirmationUpdated => atHost .handlers
  -- the controller passes the default token
  | .inr .isCancellationRequested => .ret false
  | .inr (.invoke page update) => invokePage page update

/-- The endpoint: the authorization filter comes first and ends the request when
    it sets a result; then the body is bound, and an invalid one is answered
    without the action. -/
def callbackEndpoint (site : Site) (request : CallbackRequest) : AppM ActionResult :=
  match onAuthorization site.callbackOptions request.authorization, request.body with
  | some result, _ => .ret result
  | none, none => .ret .badRequest
  | none, some body => (confirmation body).interp withPages

inductive AppTask where
  | openPage (page : Page)
  | disposePage (page : Page)
  | edit (page : Page) (model : AuthorizeFormModel)
  | submit (page : Page)
  | checkStatus (page : Page)
  | refresh (page : Page)
  | callback (request : CallbackRequest)
  | decide (transactionId : Str) (status : CallConfirmationStatus)
  deriving DecidableEq, Repr

def handleCallback (site : Site) (request : CallbackRequest) : AppM ActionResult := do
  let _ : Unit ← atRusAuth (.sendCallback request)
  let _ : Unit ← atHost (.receive request)
  callbackEndpoint site request

def AppTask.program (site : Site) : AppTask → AppM (Option ActionResult)
  | .openPage page => (onInitializedAsync page).bind fun _ => .ret none
  | .disposePage page => (dispose page).bind fun _ => .ret none
  | .edit page model => (atHost (.edit page model)).bind fun _ => .ret none
  | .submit page => (submitAsync site page).bind fun _ => .ret none
  | .checkStatus page => (checkStatusAsync page).bind fun _ => .ret none
  | .refresh page => (refreshAsync page).bind fun _ => .ret none
  | .callback request => (handleCallback site request).bind fun result => .ret (some result)
  | .decide transactionId status =>
    (atRusAuth (.decide transactionId status)).bind fun _ => .ret none

end RusAuthExample
