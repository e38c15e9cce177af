import RusAuthExample.CallbackDelivery

/-!
The session of a circuit, and ExampleAuthFacade over the store, the session and
the RusAuth client. Here a call of the store is one operation, and an assignment to
a property of the session is one. RusAuth itself is
outside code: a request is answered at one moment, its reply arrives at a later
one, and an outcome of the client may be an exception.
-/
namespace RusAuthExample
open Utf16Text OperationPrograms

structure ExampleAuthSession where
  currentTransactionId : Option Str
  infoMessage : Option Str
  errorMessage : Option Str
  deriving DecidableEq, Repr

/-- An assignment to one property of a session. The methods of the session make two of
    them each; a callback runs them on its own thread, so others may come between. -/
inductive Assignment where
  | currentTransactionId (transactionId : Str)
  | infoMessage (message : Option Str)
  | errorMessage (message : Option Str)
  deriving DecidableEq, Repr

def Assignment.apply : Assignment → ExampleAuthSession → ExampleAuthSession
  | .currentTransactionId transactionId, s => { s with currentTransactionId := some transactionId }
  | .infoMessage message, s => { s with infoMessage := message }
  | .errorMessage message, s => { s with errorMessage := message }

/- What the methods amount to where nothing comes between their assignments. -/
namespace ExampleAuthSession

def initial : ExampleAuthSession := ⟨none, none, none⟩

def trackTransaction (s : ExampleAuthSession) (transactionId : Str) : ExampleAuthSession :=
  { s with currentTransactionId := some transactionId, errorMessage := none }

def setInfo (s : ExampleAuthSession) (message : Str) : ExampleAuthSession :=
  { s with infoMessage := some message, errorMessage := none }

def setError (s : ExampleAuthSession) (message : Str) : ExampleAuthSession :=
  { s with errorMessage := some message, infoMessage := none }

def clearMessages (s : ExampleAuthSession) : ExampleAuthSession :=
  { s with infoMessage := none, errorMessage := none }

end ExampleAuthSession

abbrev SessionId := Nat

inductive PageKind where
  | authorize
  | account
  deriving DecidableEq, Repr

/-- A page instance of a circuit; its handler subscribes under the same name. -/
structure Page where
  kind : PageKind
  session : SessionId
  number : Nat
  deriving DecidableEq, Repr

structure AuthorizeFormModel where
  phoneNumber : Str
  expirationMinute : Int
  deriving DecidableEq, Repr

/-- A request to the callback endpoint. The body is none when it does not bind. -/
structure CallbackRequest where
  authorization : List Str
  body : Option RusAuthConfirmationWebHookRequest
  deriving DecidableEq, Repr

/-- What happens at RusAuth: it answers the client, decides on a transaction, and
    somebody, RusAuth or not, sends a request to the callback endpoint. -/
inductive RusAuthOp where
  | callToConfirm (request : RusAuthCallToConfirmRequest)
  | checkConfirmation (request : RusAuthCheckConfirmationRequest)
  | decide (transactionId : Str) (status : CallConfirmationStatus)
  | sendCallback (request : CallbackRequest)
  deriving DecidableEq, Repr

def rusAuthSig : Signature :=
  ⟨RusAuthOp, fun
    | .callToConfirm _ => Except Exn RusAuthCallToConfirmResponse
    | .checkConfirmation _ => Except Exn RusCheckConfirmationResponse
    | .decide _ _ => Unit
    | .sendCallback _ => Unit⟩

/-- What happens in the host: replies and requests arrive, sessions, forms and
    the event of the notifier are read and written, pages render. -/
inductive HostOp where
  | arrive
  | receive (request : CallbackRequest)
  | currentTransactionId (session : SessionId)
  | assign (session : SessionId) (assignment : Assignment)
  | model (page : Page)
  | edit (page : Page) (model : AuthorizeFormModel)
  | setIsBusy (page : Page) (isBusy : Bool)
  | setLocalError (page : Page) (localError : Option Str)
  | handlers
  | addHandler (page : Page)
  | removeHandler (page : Page)
  | stateHasChanged (page : Page)
  deriving DecidableEq, Repr

def hostSig : Signature :=
  ⟨HostOp, fun
    | .currentTransactionId _ => Option Str
    | .model _ => AuthorizeFormModel
    | .handlers => List Page
    | .stateHasChanged _ => Except Exn Unit
    | _ => Unit⟩

abbrev AppSig := callSig.sum (rusAuthSig.sum hostSig)

abbrev AppM := Prog AppSig Exn

def callStore (call : StoreCall) : AppM call.Result := .op (.inl call) Prog.ofExcept

def atRusAuth (e : RusAuthOp) : AppM (rusAuthSig.Answer e) := .op (.inr (.inl e)) .ret

def atHost (e : HostOp) : AppM (hostSig.Answer e) := .op (.inr (.inr e)) .ret

def currentTransactionId (session : SessionId) : AppM (Option Str) :=
  atHost (.currentTransactionId session)

def assign (session : SessionId) (assignment : Assignment) : AppM Unit :=
  atHost (.assign session assignment)

def trackTransaction (session : SessionId) (transactionId : Str) : AppM Unit := do
  assign session (.currentTransactionId transactionId)
  assign session (.errorMessage none)

def setInfo (session : SessionId) (message : Str) : AppM Unit := do
  assign session (.infoMessage (some message))
  assign session (.errorMessage none)

def setError (session : SessionId) (message : Str) : AppM Unit := do
  assign session (.errorMessage (some message))
  assign session (.infoMessage none)

def clearMessages (session : SessionId) : AppM Unit := do
  assign session (.infoMessage none)
  assign session (.errorMessage none)

def callToConfirmAsync (request : RusAuthCallToConfirmRequest) :
    AppM RusAuthCallToConfirmResponse := do
  let reply : Except Exn RusAuthCallToConfirmResponse ← atRusAuth (.callToConfirm request)
  let _ : Unit ← atHost .arrive
  Prog.ofExcept reply

def checkConfirmationAsync (request : RusAuthCheckConfirmationRequest) :
    AppM RusCheckConfirmationResponse := do
  let reply : Except Exn RusCheckConfirmationResponse ← atRusAuth (.checkConfirmation request)
  let _ : Unit ← atHost .arrive
  Prog.ofExcept reply

/-- The configuration of the application. System.Uri resolves the callback path
    against the base URI of a circuit. -/
structure Site where
  callbackOptions : ExampleCallbackOptions
  baseUri : SessionId → Str
  resolveUri : Str → Str → Str

def buildCallbackUrl (site : Site) (applicationBaseUri : Str) : Str :=
  site.resolveUri applicationBaseUri (lit "/api/rusauth/callback/confirmation")

def startedMessage : Str := lit "Запрос на подтверждение отправлен в РосАвт. Ожидайте входящий вызов или выполните ручную проверку статуса."

def noTransactionMessage : Str := lit "Нет активной транзакции подтверждения."

def notInJournalMessage : Str := lit "Транзакция не найдена в локальном журнале примера."

def statusMessage : CallConfirmationStatus → Str
  | .success => lit "РосАвт подтвердил звонок. В реальном проекте здесь вы применяете свои правила входа."
  | .failed => lit "РосАвт сообщил, что подтверждение не найдено."
  | .expired => lit "РосАвт сообщил, что срок подтверждения истёк."
  | _ => lit "РосАвт всё ещё ожидает подтверждение."

def callToConfirmRequest (site : Site) (phoneNumber callbackUrl : Str) (expirationMinute : Int) :
    RusAuthCallToConfirmRequest :=
  { phoneNumber := phoneNumber
    expirationMinute := expirationMinute
    webHook := callbackUrl
    webHookBearerToken := site.callbackOptions.callbackBearerToken }

def startConfirmationAsync (site : Site) (session : SessionId) (phoneNumber callbackUrl : Str)
    (expirationMinute : Int) : AppM ExampleConfirmationFlow := do
  let request := callToConfirmRequest site phoneNumber callbackUrl expirationMinute
  let response ← callToConfirmAsync request
  let flow ← callStore (.start response request)
  trackTransaction session flow.transactionId
  setInfo session startedMessage
  return flow

def checkCurrentConfirmationAsync (session : SessionId) (phoneNumber : Str) :
    AppM ExampleConfirmationFlow := do
  match ← currentTransactionId session with
  | none => throw (.invalidOperation noTransactionMessage)
  | some transactionId =>
    let response ← checkConfirmationAsync ⟨phoneNumber, transactionId⟩
    match ← callStore (.markManualStatus transactionId response.status) with
    | none => throw (.invalidOperation notInJournalMessage)
    | some flow =>
      setInfo session (statusMessage response.status)
      return flow

/-- The end of a check, given what the store has found. -/
def announceStatus (session : SessionId) (status : CallConfirmationStatus) :
    Option ExampleConfirmationFlow → AppM ExampleConfirmationFlow
  | none => throw (.invalidOperation notInJournalMessage)
  | some flow => do
    setInfo session (statusMessage status)
    return flow

theorem check_eq (session : SessionId) (phoneNumber : Str) :
    checkCurrentConfirmationAsync session phoneNumber =
      (currentTransactionId session).bind fun tracked =>
        match tracked with
        | none => throw (.invalidOperation noTransactionMessage)
        | some id => (checkConfirmationAsync ⟨phoneNumber, id⟩).bind fun response =>
            (callStore (.markManualStatus id response.status)).bind
              (announceStatus session response.status) := by
  refine congrArg (Prog.bind _) (funext fun tracked => ?_)
  cases tracked with
  | none => rfl
  | some id =>
    refine congrArg (Prog.bind _) (funext fun response => congrArg (Prog.bind _)
      (funext fun found => ?_))
    cases found <;> rfl

def getCurrentFlow (session : SessionId) : AppM (Option ExampleConfirmationFlow) := do
  match ← currentTransactionId session with
  | none => return none
  | some transactionId =>
    if isBlank transactionId then return none else callStore (.get transactionId)

/-- The first thing a start does is to hand RusAuth the configured token. When
    RusAuth sends it back, the filter accepts it exactly if it has no white space
    at its ends: it trims what it receives and not what it was configured with. -/
theorem issued_token_accepted_iff (site : Site) (session : SessionId)
    (phoneNumber callbackUrl : Str) (expirationMinute : Int) :
    ∃ request next, startConfirmationAsync site session phoneNumber callbackUrl expirationMinute =
        .op (.inr (.inl (.callToConfirm request))) next ∧
      (onAuthorization site.callbackOptions (bearerHeader request.webHookBearerToken) = none ↔
        Trimmed site.callbackOptions.callbackBearerToken) :=
  ⟨callToConfirmRequest site phoneNumber callbackUrl expirationMinute, _, rfl,
    own_token_accepted_iff site.callbackOptions⟩

def paddedSite : Site := ⟨⟨lit " secret", by decide⟩, fun _ => [], fun _ _ => []⟩

theorem padded_token_rejected :
    ∃ request next, startConfirmationAsync paddedSite 0 [55] [] 10 =
        .op (.inr (.inl (.callToConfirm request))) next ∧
      onAuthorization paddedSite.callbackOptions (bearerHeader request.webHookBearerToken) ≠ none :=
  ⟨callToConfirmRequest paddedSite [55] [] 10, _, rfl, by decide⟩

end RusAuthExample
