import RusAuthExample.FacadeCalls
import RusAuthExample.ObservedRuns
import RusAuthExample.SecretMask

/-!
What the pages and the layout put on the screen. A rendering is a program that reads
the session, the page and the journal; it reads a property again whenever the markup
names it again. The dispatcher of the circuit renders, so no other code of the
circuit runs meanwhile, but callbacks and other circuits do.
-/
namespace RusAuthExample
open Utf16Text OperationPrograms InterleavedRuns KeyedMemory ObservedRuns

variable {ς ι : Type}

inductive ViewOp where
  | isBusy (page : Page)
  | localError (page : Page)
  | infoMessage (session : SessionId)
  | errorMessage (session : SessionId)
  | values
  deriving DecidableEq, Repr

def viewSig : Signature :=
  ⟨ViewOp, fun
    | .isBusy _ => Bool
    | .localError _ => Option Str
    | .infoMessage _ => Option Str
    | .errorMessage _ => Option Str
    | .values => List ExampleConfirmationFlow⟩

abbrev LookSig := FineSig.sum viewSig

abbrev ViewM := Prog LookSig Exn

def look (e : ViewOp) : ViewM (viewSig.Answer e) := .op (.inr e) .ret

def ofApp {A : Type} (p : AppM A) : ViewM A := (p.interp withAccesses).onLeft

def nullReference : Exn := .external (lit "Object reference not set to an instance of an object.")

def toDisplayString (phoneNumber : Option Str) : Str := phoneNumber.getD (lit "не задан")

def CallConfirmationStatus.toDisplayString : CallConfirmationStatus → Str
  | .unhandled => lit "ожидается подтверждение"
  | .success => lit "подтверждено"
  | .failed => lit "не подтверждено"
  | .expired => lit "срок истёк"
  | .other value => lit (toString value)

def orDefaultText (value : Option Str) (fallback : Str) : Str :=
  if isNullOrWhiteSpace value then fallback else value.getD []

def getStatusCssClass : CallConfirmationStatus → Str
  | .success => lit "status-pill status-pill-success"
  | .failed => lit "status-pill status-pill-failed"
  | .expired => lit "status-pill status-pill-expired"
  | _ => lit "status-pill status-pill-pending"

/-- `format` is ToLocalTime().ToString("u"). -/
def formatDate (format : DateTime → Str) (value : Option DateTime) : Str :=
  (value.map format).getD (lit "ещё нет")

def currentFlow (session : SessionId) : ViewM (Option ExampleConfirmationFlow) :=
  ofApp (getCurrentFlow session)

/-- A property of CurrentFlow, which is looked up anew for it. -/
def ofCurrentFlow (session : SessionId) (property : ExampleConfirmationFlow → Str) : ViewM Str := do
  match ← currentFlow session with
  | none => throw nullReference
  | some flow => return property flow

structure TransactionCard where
  cssClass : Str
  statusText : Str
  transactionId : Str
  clientPhoneNumber : Str
  confirmationPhoneNumber : Str
  createdOn : Str
  callbackReceivedOn : Str
  lastManualCheckOn : Str
  deriving DecidableEq, Repr

def renderCard (format : DateTime → Str) (session : SessionId) : ViewM TransactionCard := do
  let cssClass ← ofCurrentFlow session fun flow => getStatusCssClass flow.status
  let statusText ← ofCurrentFlow session fun flow => flow.status.toDisplayString
  let transactionId ← ofCurrentFlow session fun flow => flow.transactionId
  let clientPhoneNumber ← ofCurrentFlow session fun flow =>
    toDisplayString (some flow.clientPhoneNumber)
  let confirmationPhoneNumber ← ofCurrentFlow session fun flow =>
    toDisplayString flow.confirmationPhoneNumber
  let createdOn ← ofCurrentFlow session fun flow => formatDate format (some flow.createdOn)
  let callbackReceivedOn ← ofCurrentFlow session fun flow =>
    formatDate format flow.callbackReceivedOn
  let lastManualCheckOn ← ofCurrentFlow session fun flow => formatDate format flow.lastManualCheckOn
  return { cssClass, statusText, transactionId, clientPhoneNumber, confirmationPhoneNumber,
           createdOn, callbackReceivedOn, lastManualCheckOn }

def renderStatus (format : DateTime → Str) (session : SessionId) :
    ViewM (Option TransactionCard) := do
  if (← currentFlow session).isNone then return none
  else return some (← renderCard format session)

/-- The markup asks for a message to see that it is not blank, and again to show it. -/
def shownMessage (message : ViewM (Option Str)) : ViewM (Option (Option Str)) := do
  if isNullOrWhiteSpace (← message) then return none
  else return some (← message)

structure FormView where
  phoneNumber : Str
  expirationMinute : Int
  callbackUrl : Str
  submitDisabled : Bool
  checkDisabled : Bool
  refreshDisabled : Bool
  deriving DecidableEq, Repr

def renderForm (site : Site) (page : Page) : ViewM FormView := do
  let phoneNumber := (← ofApp (formModel page)).phoneNumber
  let expirationMinute := (← ofApp (formModel page)).expirationMinute
  let callbackUrl := buildCallbackUrl site (site.baseUri page.session)
  let submitDisabled : Bool ← look (.isBusy page)
  let checkDisabled : Bool ← look (.isBusy page)
  let refreshDisabled : Bool ← look (.isBusy page)
  return { phoneNumber, expirationMinute, callbackUrl, submitDisabled, checkDisabled,
           refreshDisabled }

structure AuthorizeView where
  card : Option TransactionCard
  localError : Option (Option Str)
  form : FormView
  deriving DecidableEq, Repr

/-- The content of the form is a fragment that the form component renders after the
    page has been gone through. -/
def renderAuthorize (format : DateTime → Str) (site : Site) (page : Page) : ViewM AuthorizeView := do
  let card ← renderStatus format page.session
  let localError ← shownMessage (look (.localError page))
  let form ← renderForm site page
  return { card, localError, form }

structure AccountRow where
  transactionId : Str
  clientPhoneNumber : Str
  confirmationPhoneNumber : Str
  webHook : Str
  cssClass : Str
  statusText : Str
  createdOn : Str
  callbackReceivedOn : Str
  lastManualCheckOn : Str
  deriving DecidableEq, Repr

def accountRow (format : DateTime → Str) (flow : ExampleConfirmationFlow) : AccountRow where
  transactionId := flow.transactionId
  clientPhoneNumber := toDisplayString (some flow.clientPhoneNumber)
  confirmationPhoneNumber := toDisplayString flow.confirmationPhoneNumber
  webHook := flow.webHook
  cssClass := getStatusCssClass flow.status
  statusText := flow.status.toDisplayString
  createdOn := formatDate format (some flow.createdOn)
  callbackReceivedOn := formatDate format flow.callbackReceivedOn
  lastManualCheckOn := formatDate format flow.lastManualCheckOn

/-- Without rows the page says that the journal is empty. -/
structure AccountView where
  currentTransaction : Str
  callbackToken : Str
  rows : Option (List AccountRow)
  deriving DecidableEq, Repr

def getTrackedFlows : ViewM (List ExampleConfirmationFlow) := do
  let values : List ExampleConfirmationFlow ← look .values
  return getAll values

def notStartedText : Str := lit "ещё не запускалась"

def renderRows (format : DateTime → Str) : ViewM (Option (List AccountRow)) := do
  if (← getTrackedFlows).length = 0 then return none
  else return some ((← getTrackedFlows).map (accountRow format))

def renderAccount (format : DateTime → Str) (site : Site) (page : Page) : ViewM AccountView := do
  let currentTransaction :=
    orDefaultText (← ofApp (currentTransactionId page.session)) notStartedText
  let callbackToken := maskSecret (some (getCallbackBearerTokenPreview site.callbackOptions))
  let rows ← renderRows format
  return { currentTransaction, callbackToken, rows }

structure LayoutView where
  statusClass : Str
  statusText : Str
  info : Option (Option Str)
  error : Option (Option Str)
  deriving DecidableEq, Repr

def renderStatusText (session : SessionId) : ViewM Str := do
  if isNullOrWhiteSpace (← ofApp (currentTransactionId session)) then
    return lit "Ожидает запуска подтверждения"
  else return lit "Активная транзакция: " ++ (← ofApp (currentTransactionId session)).getD []

def renderLayout (session : SessionId) : ViewM LayoutView := do
  let statusClass :=
    if isNullOrWhiteSpace (← ofApp (currentTransactionId session)) then lit "shell-status-anonymous"
    else lit "shell-status-authenticated"
  let statusText ← renderStatusText session
  let info ← shownMessage (look (.infoMessage session))
  let error ← shownMessage (look (.errorMessage session))
  return { statusClass, statusText, info, error }

def viewed (s : App ς) : (e : viewSig.Op) → viewSig.Answer e → Prop
  | .isBusy page, a => a = (s.2.2.pages page).isBusy
  | .localError page, a => a = (s.2.2.pages page).localError
  | .infoMessage session, a => a = (s.2.2.sessions session).infoMessage
  | .errorMessage session, a => a = (s.2.2.sessions session).errorMessage
  | .values, a => Snapshot s.1 a

/-- An operation of the application looks if it leaves the state as it is. -/
def looking (rusAuth : Semantics rusAuthSig ς) : Looking LookSig (App ς) := fun s e =>
  match e with
  | .inl e => fun a => fineEffect rusAuth s e a s
  | .inr e => viewed s e

/-- The operations of a rendering, which all leave the state as it is. -/
def OnlyLooks : LookSig.Op → Prop
  | .inl (.inl (.inl (.get _))) => True
  | .inl (.inr (.inr (.currentTransactionId _))) => True
  | .inl (.inr (.inr (.model _))) => True
  | .inr _ => True
  | _ => False

theorem current_flow_reads (session : SessionId) : (currentFlow session).Uses OnlyLooks := by
  refine ⟨trivial, fun (tracked : Option Str) => ?_⟩
  cases tracked with
  | none => trivial
  | some id =>
    show ((if isBlank id then Prog.ret none else callStore (.get id)).interp
      withAccesses).onLeft.Uses OnlyLooks
    split
    · trivial
    · exact ⟨trivial, fun _ => trivial⟩

theorem card_reads (format : DateTime → Str) (session : SessionId) :
    (renderCard format session).Uses OnlyLooks := by
  have each : ∀ property, (ofCurrentFlow session property).Uses OnlyLooks := fun property =>
    Prog.uses_bind (current_flow_reads session) fun found => by cases found <;> trivial
  unfold renderCard
  iterate 8 refine Prog.uses_bind (each _) fun _ => ?_
  trivial

theorem message_reads (e : ViewOp) (message : viewSig.Answer e → Option Str) :
    (shownMessage ((look e).bind fun a => .ret (message a))).Uses OnlyLooks := by
  refine ⟨trivial, fun a => ?_⟩
  show (if isNullOrWhiteSpace (message a) then Prog.ret none
    else ((look e).bind fun a => .ret (message a)).bind fun shown => .ret (some shown)).Uses OnlyLooks
  split
  · trivial
  · exact ⟨trivial, fun _ => trivial⟩

theorem authorize_reads (format : DateTime → Str) (site : Site) (page : Page) :
    (renderAuthorize format site page).Uses OnlyLooks := by
  have status : (renderStatus format page.session).Uses OnlyLooks := by
    refine Prog.uses_bind (current_flow_reads page.session) fun found => ?_
    cases found with
    | none => trivial
    | some flow => exact Prog.uses_bind (card_reads format page.session) fun _ => trivial
  have form : (renderForm site page).Uses OnlyLooks :=
    ⟨trivial, fun _ => ⟨trivial, fun _ => ⟨trivial, fun _ => ⟨trivial, fun _ => ⟨trivial,
      fun _ => trivial⟩⟩⟩⟩⟩
  exact Prog.uses_bind status fun _ =>
    Prog.uses_bind (message_reads (.localError page) id) fun _ =>
      Prog.uses_bind form fun _ => trivial

theorem current_id_reads (session : SessionId) :
    (ofApp (currentTransactionId session)).Uses OnlyLooks := ⟨trivial, fun _ => trivial⟩

theorem account_reads (format : DateTime → Str) (site : Site) (page : Page) :
    (renderAccount format site page).Uses OnlyLooks := by
  have flows : getTrackedFlows.Uses OnlyLooks := ⟨trivial, fun _ => trivial⟩
  have rows : (renderRows format).Uses OnlyLooks := by
    refine Prog.uses_bind flows fun counted => ?_
    show (if counted.length = 0 then Prog.ret none
      else getTrackedFlows.bind fun flows => .ret (some (flows.map (accountRow format)))).Uses _
    split
    · trivial
    · exact Prog.uses_bind flows fun _ => trivial
  exact Prog.uses_bind (current_id_reads page.session) fun _ => Prog.uses_bind rows fun _ => trivial

theorem layout_reads (session : SessionId) : (renderLayout session).Uses OnlyLooks := by
  have status : (renderStatusText session).Uses OnlyLooks := by
    refine Prog.uses_bind (current_id_reads session) fun tracked => ?_
    show (if isNullOrWhiteSpace tracked then Prog.ret (lit "Ожидает запуска подтверждения")
      else (ofApp (currentTransactionId session)).bind fun named =>
        .ret (lit "Активная транзакция: " ++ named.getD [])).Uses _
    split
    · trivial
    · exact Prog.uses_bind (current_id_reads session) fun _ => trivial
  refine Prog.uses_bind (current_id_reads session) fun _ => Prog.uses_bind status fun _ => ?_
  exact Prog.uses_bind (message_reads (.infoMessage session) id) fun _ =>
    Prog.uses_bind (message_reads (.errorMessage session) id) fun _ => trivial

/-- The step is not one of the circuit's code: the dispatcher is rendering. -/
def Elsewhere (tasks : ι → FacadeTask) (session : SessionId) (_ : FacadePool ς ι)
    (l : Label FineSig ι) : Prop := (tasks l.1).circuit ≠ some session ∨ AtRusAuth l.2.1

end RusAuthExample
