import Mathlib.Data.List.Sort
import RusAuthExample.Contracts
import RusAuthExample.KeyedMemory

/-!
ExampleConfirmationStore. Each method is the program of its dictionary accesses
and clock readings in source order; the dictionary makes a single access atomic
and nothing more.
-/
namespace RusAuthExample
open Utf16Text OperationPrograms InterleavedRuns KeyedMemory

abbrev Journal := Memory Str ExampleConfirmationFlow

/-- Accesses to `_flows` and readings of DateTime.UtcNow. -/
abbrev StoreSig := (keyed Str ExampleConfirmationFlow).sum (inputOf DateTime)

abbrev StoreM := Prog StoreSig Exn

def utcNow : StoreM DateTime := Prog.perform (S := StoreSig) (.inr ())

/-- A null key makes the dictionary throw before it looks anything up. -/
def tryGetValue : Option Str → StoreM (Option ExampleConfirmationFlow)
  | none => throw .argumentNull
  | some key => Prog.perform (S := StoreSig) (.inl (.get key))

def setItem : Option Str → ExampleConfirmationFlow → StoreM Unit
  | none, _ => throw .argumentNull
  | some key, flow => Prog.perform (S := StoreSig) (.inl (.put key flow))

def newFlow (transactionId : Str) (response : RusAuthCallToConfirmResponse)
    (request : RusAuthCallToConfirmRequest) (createdOn : DateTime) : ExampleConfirmationFlow :=
  { transactionId := transactionId
    clientPhoneNumber := request.phoneNumber
    confirmationPhoneNumber := response.atcPhoneNumber
    status := .unhandled
    webHook := request.webHook
    createdOn := createdOn
    completedOn := none
    callbackReceivedOn := none
    lastManualCheckOn := none }

def start (response : RusAuthCallToConfirmResponse) (request : RusAuthCallToConfirmRequest) :
    StoreM ExampleConfirmationFlow := do
  let createdOn ← utcNow
  match response.transactionId with
  | none => throw .argumentNull
  | some transactionId =>
    let flow := newFlow transactionId response request createdOn
    setItem (some transactionId) flow
    return flow

def get (transactionId : Str) : StoreM (Option ExampleConfirmationFlow) :=
  tryGetValue (some transactionId)

/-- The dictionary hands out a snapshot of its values in some order. -/
def Snapshot (journal : Journal) (values : List ExampleConfirmationFlow) : Prop :=
  values.Perm (journal.entries.map Sigma.snd)

/-- OrderByDescending is a stable sort. -/
def getAll (values : List ExampleConfirmationFlow) : List ExampleConfirmationFlow :=
  values.mergeSort fun x y => y.createdOn ≤ x.createdOn

def callbackUpdate (existing : ExampleConfirmationFlow)
    (completedOn callbackReceivedOn : DateTime) : ExampleConfirmationFlow :=
  { existing with
    status := .success
    completedOn := some completedOn
    callbackReceivedOn := some callbackReceivedOn }

def markCallbackReceived (request : RusAuthConfirmationWebHookRequest) :
    StoreM (Option ExampleConfirmationFlow) := do
  match ← tryGetValue request.transactionId with
  | none => return none
  | some existing =>
    let completedOn ← utcNow
    let callbackReceivedOn ← utcNow
    let updated := callbackUpdate existing completedOn callbackReceivedOn
    setItem request.transactionId updated
    return some updated

def manualUpdate (existing : ExampleConfirmationFlow) (status : CallConfirmationStatus)
    (completedOn : Option DateTime) (lastManualCheckOn : DateTime) : ExampleConfirmationFlow :=
  { existing with
    status := status
    completedOn := completedOn
    lastManualCheckOn := some lastManualCheckOn }

def callbackWith (clock : Nat → DateTime) (existing : ExampleConfirmationFlow) :
    ExampleConfirmationFlow := callbackUpdate existing (clock 0) (clock 1)

/-- The record a manual check writes. A waiting status costs no completion date,
    hence one clock reading less. -/
def manualWith (status : CallConfirmationStatus) (clock : Nat → DateTime)
    (existing : ExampleConfirmationFlow) : ExampleConfirmationFlow :=
  if status = .unhandled then manualUpdate existing status existing.completedOn (clock 0)
  else manualUpdate existing status (some (clock 0)) (clock 1)

def markManualStatus (transactionId : Str) (status : CallConfirmationStatus) :
    StoreM (Option ExampleConfirmationFlow) := do
  match ← tryGetValue (some transactionId) with
  | none => return none
  | some existing =>
    let completedOn ← if status = .unhandled then pure existing.completedOn else some <$> utcNow
    let lastManualCheckOn ← utcNow
    let updated := manualUpdate existing status completedOn lastManualCheckOn
    setItem (some transactionId) updated
    return some updated

inductive StoreCall where
  | start (response : RusAuthCallToConfirmResponse) (request : RusAuthCallToConfirmRequest)
  | get (transactionId : Str)
  | markCallbackReceived (request : RusAuthConfirmationWebHookRequest)
  | markManualStatus (transactionId : Str) (status : CallConfirmationStatus)
  deriving DecidableEq, Repr

namespace StoreCall

abbrev Result : StoreCall → Type
  | .start _ _ => ExampleConfirmationFlow
  | _ => Option ExampleConfirmationFlow

def program : (call : StoreCall) → StoreM call.Result
  | .start response request => RusAuthExample.start response request
  | .get transactionId => RusAuthExample.get transactionId
  | .markCallbackReceived request => RusAuthExample.markCallbackReceived request
  | .markManualStatus transactionId status => RusAuthExample.markManualStatus transactionId status

def returned : (call : StoreCall) → call.Result → Option ExampleConfirmationFlow
  | .start _ _, flow => some flow
  | .get _, flow => flow
  | .markCallbackReceived _, flow => flow
  | .markManualStatus _ _, flow => flow

def body (call : StoreCall) : StoreM (Option ExampleConfirmationFlow) :=
  call.program.bind fun result => .ret (call.returned result)

def named : StoreCall → Option Str
  | .start response _ => response.transactionId
  | .get transactionId => some transactionId
  | .markCallbackReceived request => request.transactionId
  | .markManualStatus transactionId _ => some transactionId

/-- The call with its clock readings fixed: what is left are its accesses to the
    dictionary, at most one read and then at most one write. -/
def access (call : StoreCall) (clock : Nat → DateTime) : Access Str ExampleConfirmationFlow Exn :=
  match call with
  | .start response request =>
    match response.transactionId with
    | none => .refuse .argumentNull
    | some transactionId => .write transactionId (newFlow transactionId response request (clock 0))
  | .get transactionId => .fetch transactionId
  | .markCallbackReceived request =>
    match request.transactionId with
    | none => .refuse .argumentNull
    | some transactionId => .update transactionId (callbackWith clock)
  | .markManualStatus transactionId status => .update transactionId (manualWith status clock)

/-- The shape is read off the source: feeding the clock readings to the method
    leaves exactly these accesses. -/
theorem feed_body (call : StoreCall) (clock : Nat → DateTime) :
    call.body.feed clock = (call.access clock).prog := by
  cases call with
  | start response request =>
    rcases response with ⟨transactionId, atc⟩
    cases transactionId <;> rfl
  | get transactionId => rfl
  | markCallbackReceived request =>
    rcases request with ⟨transactionId, phone⟩
    cases transactionId with
    | none => rfl
    | some id =>
      refine congrArg (Prog.op _) (funext fun found => ?_)
      cases found <;> rfl
  | markManualStatus transactionId status =>
    refine congrArg (Prog.op _) (funext fun found => ?_)
    cases found with
    | none => rfl
    | some existing =>
      by_cases waiting : status = .unhandled
      · subst waiting; rfl
      · simp only [waiting, if_false, manualWith]
        rfl

def target : StoreCall → Option Str
  | .start response _ => response.transactionId
  | .get _ => none
  | .markCallbackReceived request => request.transactionId
  | .markManualStatus transactionId _ => some transactionId

def onJournal (call : StoreCall) (clock : Nat → DateTime) (journal : Journal) :
    Except Exn call.Result × Journal := (call.program.feed clock).exec answer journal

end StoreCall

/-- Calls as single operations, for runs in which the calls do not overlap. -/
def callSig : Signature := ⟨StoreCall, fun call => Except Exn call.Result⟩

section Spec
variable (clock : Nat → DateTime) (journal : Journal)

theorem on_journal_start_null {response : RusAuthCallToConfirmResponse}
    (null : response.transactionId = none) (request : RusAuthCallToConfirmRequest) :
    (StoreCall.start response request).onJournal clock journal =
      (.error .argumentNull, journal) := by
  obtain ⟨transactionId, number⟩ := response
  subst null
  rfl

theorem on_journal_start {response : RusAuthCallToConfirmResponse} {id : Str}
    (names : response.transactionId = some id) (request : RusAuthCallToConfirmRequest) :
    (StoreCall.start response request).onJournal clock journal =
      (.ok (newFlow id response request (clock 0)),
        journal.insert id (newFlow id response request (clock 0))) := by
  obtain ⟨transactionId, number⟩ := response
  subst names
  rfl

theorem on_journal_get (id : Str) :
    (StoreCall.get id).onJournal clock journal = (.ok (journal.lookup id), journal) := rfl

theorem on_journal_callback_null {request : RusAuthConfirmationWebHookRequest}
    (null : request.transactionId = none) :
    (StoreCall.markCallbackReceived request).onJournal clock journal =
      (.error .argumentNull, journal) := by
  obtain ⟨transactionId, number⟩ := request
  subst null
  rfl

theorem on_journal_callback {request : RusAuthConfirmationWebHookRequest} {id : Str}
    (names : request.transactionId = some id) :
    (StoreCall.markCallbackReceived request).onJournal clock journal =
      match journal.lookup id with
      | none => (.ok none, journal)
      | some flow =>
        (.ok (some (callbackWith clock flow)), journal.insert id (callbackWith clock flow)) := by
  have body : (StoreCall.markCallbackReceived request).body = markCallbackReceived request :=
    Prog.bind_ret _
  rw [StoreCall.onJournal, StoreCall.program, ← body, StoreCall.feed_body, StoreCall.access, names]
  refine (exec_update id (callbackWith clock) journal).trans ?_
  cases journal.lookup id <;> rfl

theorem on_journal_manual (id : Str) (status : CallConfirmationStatus) :
    (StoreCall.markManualStatus id status).onJournal clock journal =
      match journal.lookup id with
      | none => (.ok none, journal)
      | some flow =>
        (.ok (some (manualWith status clock flow)),
          journal.insert id (manualWith status clock flow)) := by
  have body : (StoreCall.markManualStatus id status).body = markManualStatus id status :=
    Prog.bind_ret _
  rw [StoreCall.onJournal, StoreCall.program, ← body, StoreCall.feed_body, StoreCall.access]
  refine (exec_update id (manualWith status clock) journal).trans ?_
  cases journal.lookup id <;> rfl

end Spec

def callEffect : Semantics callSig Journal := fun journal call a journal' =>
  ∃ clock, call.onJournal clock journal = (a, journal')

inductive Writes (journal : Journal) : StoreCall → Str → ExampleConfirmationFlow → Prop where
  | start {response : RusAuthCallToConfirmResponse} {id : Str}
      (names : response.transactionId = some id) (request : RusAuthCallToConfirmRequest)
      (created : DateTime) :
      Writes journal (.start response request) id (newFlow id response request created)
  | callback {request : RusAuthConfirmationWebHookRequest} {id : Str}
      {flow : ExampleConfirmationFlow} (names : request.transactionId = some id)
      (known : journal.lookup id = some flow) (completed received : DateTime) :
      Writes journal (.markCallbackReceived request) id (callbackUpdate flow completed received)
  | waiting {id : Str} {flow : ExampleConfirmationFlow} (known : journal.lookup id = some flow)
      (checked : DateTime) :
      Writes journal (.markManualStatus id .unhandled) id
        (manualUpdate flow .unhandled flow.completedOn checked)
  | decided {id : Str} {status : CallConfirmationStatus} {flow : ExampleConfirmationFlow}
      (decides : status ≠ .unhandled) (known : journal.lookup id = some flow)
      (completed checked : DateTime) :
      Writes journal (.markManualStatus id status) id
        (manualUpdate flow status (some completed) checked)

theorem writes_target {journal : Journal} {call : StoreCall} {id : Str}
    {flow : ExampleConfirmationFlow} (writes : Writes journal call id flow) :
    call.target = some id := by
  cases writes with
  | start names request created => exact names
  | callback names known completed received => exact names
  | waiting known checked => rfl
  | decided decides known completed checked => rfl

/-- All a call can do: leave the journal alone, or write one record and return it. -/
theorem call_cases {journal journal' : Journal} {call : StoreCall} {a : callSig.Answer call}
    (did : callEffect journal call a journal') :
    journal' = journal ∨ ∃ id flow result, Writes journal call id flow ∧
      journal' = journal.insert id flow ∧ a = .ok result ∧ call.returned result = some flow := by
  obtain ⟨clock, did⟩ := did
  cases call with
  | start response request =>
    cases names : response.transactionId with
    | none =>
      rw [on_journal_start_null clock journal names] at did
      cases did
      exact Or.inl rfl
    | some id =>
      rw [on_journal_start clock journal names] at did
      cases did
      exact Or.inr ⟨id, _, _, .start names request _, rfl, rfl, rfl⟩
  | get id =>
    rw [on_journal_get] at did
    cases did
    exact Or.inl rfl
  | markCallbackReceived request =>
    cases names : request.transactionId with
    | none =>
      rw [on_journal_callback_null clock journal names] at did
      cases did
      exact Or.inl rfl
    | some id =>
      rw [on_journal_callback clock journal names] at did
      cases known : journal.lookup id with
      | none => rw [known] at did; cases did; exact Or.inl rfl
      | some flow =>
        rw [known] at did
        cases did
        exact Or.inr ⟨id, _, _, .callback names known _ _, rfl, rfl, rfl⟩
  | markManualStatus id status =>
    rw [on_journal_manual] at did
    cases known : journal.lookup id with
    | none => rw [known] at did; cases did; exact Or.inl rfl
    | some flow =>
      rw [known] at did
      cases did
      refine Or.inr ⟨id, manualWith status clock flow, _, ?_, rfl, rfl, rfl⟩
      by_cases waits : status = .unhandled
      · subst waits; exact .waiting known (clock 0)
      · rw [manualWith, if_neg waits]; exact .decided waits known (clock 0) (clock 1)

end RusAuthExample
