import RusAuthExample.CallbackFilter
import RusAuthExample.ConfirmationStore

/-!
ExampleConfirmationNotifier and the action of RusAuthCallbackController. The
subscribed handlers are outside code here: each invocation completes, throws
when it is called, or returns a task that faults. The delivery loop awaits them
one by one and catches nothing.
-/
namespace RusAuthExample
open Utf16Text OperationPrograms KeyedMemory

inductive HandlerOutcome where
  | completes
  | throwsAtCall (error : Exn)
  | faultsTask (error : Exn)
  deriving DecidableEq, Repr

namespace HandlerOutcome

def result : HandlerOutcome → Except Exn Unit
  | .completes => .ok ()
  | .throwsAtCall error => .error error
  | .faultsTask error => .error error

end HandlerOutcome

/-- The token of a source, or the default one, which is never cancelled. -/
inductive CancellationToken where
  | none
  | source
  deriving DecidableEq, Repr

inductive NotifierOp (H : Type) where
  | confirmationUpdated
  | isCancellationRequested
  | invoke (handler : H) (update : ExampleConfirmationUpdate)

def notifierSig (H : Type) : Signature :=
  ⟨NotifierOp H, fun
    | .confirmationUpdated => List H
    | .isCancellationRequested => Bool
    | .invoke _ _ => HandlerOutcome⟩

variable {H : Type}

abbrev NotifierM (H : Type) := Prog (notifierSig H) Exn

/-- The invocation list of the event; the event is null when the list is empty. -/
def confirmationUpdated : NotifierM H (List H) :=
  Prog.perform (S := notifierSig H) .confirmationUpdated

def isCancellationRequested : NotifierM H Bool :=
  Prog.perform (S := notifierSig H) .isCancellationRequested

def throwIfCancellationRequested : CancellationToken → NotifierM H Unit
  | .none => pure ()
  | .source => do if ← isCancellationRequested then throw .operationCanceled

def invoke (handler : H) (update : ExampleConfirmationUpdate) : NotifierM H Unit := do
  let outcome ← (Prog.perform (S := notifierSig H) (.invoke handler update) :
    NotifierM H HandlerOutcome)
  Prog.ofExcept outcome.result

def deliver (update : ExampleConfirmationUpdate) (cancellationToken : CancellationToken) :
    List H → NotifierM H Unit
  | [] => pure ()
  | handler :: rest => do
    throwIfCancellationRequested cancellationToken
    invoke handler update
    deliver update cancellationToken rest

def publishAsync (update : ExampleConfirmationUpdate) (cancellationToken : CancellationToken) :
    NotifierM H Unit := do
  let handlers ← confirmationUpdated
  if handlers.isEmpty then return
  deliver update cancellationToken handlers

abbrev ControllerM (H : Type) := Prog (callSig.sum (notifierSig H)) Exn

def markCallback (request : RusAuthConfirmationWebHookRequest) :
    ControllerM H (Option ExampleConfirmationFlow) := do
  let outcome ← (Prog.perform (S := callSig.sum (notifierSig H))
    (.inl (.markCallbackReceived request)) :
    ControllerM H (Except Exn (Option ExampleConfirmationFlow)))
  Prog.ofExcept outcome

def updateOf (flow : ExampleConfirmationFlow) : ExampleConfirmationUpdate :=
  { transactionId := flow.transactionId
    status := flow.status
    callbackReceivedOn := flow.callbackReceivedOn
    completedOn := flow.completedOn }

def confirmation (request : RusAuthConfirmationWebHookRequest) : ControllerM H ActionResult := do
  match ← markCallback request with
  | none => return .notFound
  | some flow =>
    (publishAsync (updateOf flow) .none).onRight
    return .ok

/-- The subscribers when the delivery starts, the outcomes of the invocations to
    come, and the invocations made. -/
structure Subscriptions (H : Type) where
  handlers : List H
  outcomes : Nat → HandlerOutcome
  invoked : List (H × ExampleConfirmationUpdate)

def notify : (e : (notifierSig H).Op) → Subscriptions H → (notifierSig H).Answer e × Subscriptions H
  | .confirmationUpdated, s => (s.handlers, s)
  | .isCancellationRequested, s => (false, s)
  | .invoke handler update, s =>
    (s.outcomes 0, { s with
      outcomes := fun n => s.outcomes (n + 1)
      invoked := s.invoked ++ [(handler, update)] })

/-- The handlers up to and including the first one that fails. -/
def reached : List H → (Nat → HandlerOutcome) → List H
  | [], _ => []
  | handler :: rest, outcomes =>
    handler :: if outcomes 0 = .completes then reached rest fun n => outcomes (n + 1) else []

def Subscriptions.after (s : Subscriptions H) (handler : H) (update : ExampleConfirmationUpdate) :
    Subscriptions H :=
  { s with
    outcomes := fun n => s.outcomes (n + 1)
    invoked := s.invoked ++ [(handler, update)] }

section Loop
variable (update : ExampleConfirmationUpdate) (cancellationToken : CancellationToken)

theorem deliver_cons (handler : H) (rest : List H) (s : Subscriptions H) :
    (deliver update cancellationToken (handler :: rest)).exec notify s =
      match (s.outcomes 0).result with
      | .ok () => (deliver update cancellationToken rest).exec notify (s.after handler update)
      | .error x => (.error x, s.after handler update) := by
  have turn : (deliver update cancellationToken (handler :: rest)).exec notify s =
      (((Prog.ofExcept (s.outcomes 0).result).bind fun _ =>
        deliver update cancellationToken rest).exec notify (s.after handler update)) := by
    cases cancellationToken <;> rfl
  rw [turn]
  cases (s.outcomes 0).result <;> rfl

theorem result_of_completes {outcome : HandlerOutcome} (completes : outcome = .completes) :
    outcome.result = .ok () := by
  rw [completes]; rfl

theorem result_of_fails {outcome : HandlerOutcome} (fails : outcome ≠ .completes) :
    ∃ x, outcome.result = .error x := by
  cases outcome with
  | completes => exact absurd rfl fails
  | throwsAtCall error => exact ⟨error, rfl⟩
  | faultsTask error => exact ⟨error, rfl⟩

theorem deliver_invoked (handlers : List H) (s : Subscriptions H) :
    ((deliver update cancellationToken handlers).exec notify s).2.invoked =
      s.invoked ++ (reached handlers s.outcomes).map fun handler => (handler, update) := by
  induction handlers generalizing s with
  | nil => exact (List.append_nil s.invoked).symm
  | cons handler rest ih =>
    rw [deliver_cons, reached]
    by_cases completes : s.outcomes 0 = .completes
    · rw [result_of_completes completes, if_pos completes]
      simp only [ih, Subscriptions.after, List.append_assoc, List.map_cons, List.singleton_append]
    · obtain ⟨x, fails⟩ := result_of_fails completes
      rw [fails, if_neg completes]
      rfl

theorem deliver_ok_iff (handlers : List H) (s : Subscriptions H) :
    ((deliver update cancellationToken handlers).exec notify s).1 = .ok () ↔
      ∀ k < handlers.length, s.outcomes k = .completes := by
  induction handlers generalizing s with
  | nil => simp [deliver, Prog.exec]
  | cons handler rest ih =>
    rw [deliver_cons]
    by_cases completes : s.outcomes 0 = .completes
    · rw [result_of_completes completes]
      simp only [ih, Subscriptions.after, List.length_cons]
      constructor
      · intro all k bound
        cases k with
        | zero => exact completes
        | succ k => exact all k (by omega)
      · exact fun all k bound => all (k + 1) (by omega)
    · obtain ⟨x, fails⟩ := result_of_fails completes
      rw [fails]
      simp only [reduceCtorEq, List.length_cons, false_iff]
      exact fun all => completes (all 0 (by omega))

end Loop

theorem reached_all_iff (handlers : List H) (outcomes : Nat → HandlerOutcome) :
    reached handlers outcomes = handlers ↔
      ∀ k, k + 1 < handlers.length → outcomes k = .completes := by
  induction handlers generalizing outcomes with
  | nil => simp [reached]
  | cons handler rest ih =>
    rw [reached, List.cons_inj_right]
    by_cases completes : outcomes 0 = .completes
    · rw [if_pos completes, ih]
      constructor
      · intro all k bound
        cases k with
        | zero => exact completes
        | succ k => exact all k (by simpa using bound)
      · exact fun all k bound => all (k + 1) (by simpa using bound)
    · rw [if_neg completes]
      cases rest with
      | nil => simp
      | cons next rest =>
        simp only [reduceCtorEq, List.length_cons, false_iff]
        exact fun all => completes (all 0 (by omega))

section Publish
variable (update : ExampleConfirmationUpdate) (cancellationToken : CancellationToken)
  (s : Subscriptions H)

theorem publish_delivers : (publishAsync update cancellationToken).exec notify s =
    (deliver update cancellationToken s.handlers).exec notify s := by
  obtain ⟨handlers, outcomes, invoked⟩ := s
  cases handlers <;> rfl

def InvokesAll : Prop :=
  ((publishAsync update cancellationToken).exec notify s).2.invoked =
    s.invoked ++ s.handlers.map fun handler => (handler, update)

/-- A failing handler starves exactly those after it, so only the last one may fail. -/
theorem publish_invokes_all_iff : InvokesAll update cancellationToken s ↔
    ∀ k, k + 1 < s.handlers.length → s.outcomes k = .completes := by
  rw [InvokesAll, publish_delivers, deliver_invoked, List.append_cancel_left_eq,
    List.map_inj_right fun _ _ same => (Prod.mk.inj same).1, reached_all_iff]

end Publish

namespace BrokenFirstHandler

def update : ExampleConfirmationUpdate := ⟨[116], .success, some 2, some 1⟩

def subscribed : Subscriptions Bool :=
  ⟨[false, true], fun _ => .faultsTask (.external []), []⟩

end BrokenFirstHandler

theorem broken_handler_starves_next :
    ¬ InvokesAll BrokenFirstHandler.update .none BrokenFirstHandler.subscribed := by
  intro (all : [(false, BrokenFirstHandler.update)] = [(false, _), (true, _)])
  simp at all

def respond (clock : Nat → DateTime) :=
  Prog.alongside (S := callSig) (fun call journal => call.onJournal clock journal) (notify (H := H))

/-- A callback on a journal, with its clock readings: the answer, the journal
    and the subscriptions it leaves. -/
def answered (clock : Nat → DateTime) (request : RusAuthConfirmationWebHookRequest)
    (journal : Journal) (s : Subscriptions H) :
    Except Exn ActionResult × Journal × Subscriptions H :=
  (confirmation request).exec (respond clock) (journal, s)

section Controller
variable (clock : Nat → DateTime) (request : RusAuthConfirmationWebHookRequest) (journal : Journal)
  (s : Subscriptions H)

theorem mark_callback_exec : (markCallback request).exec (respond clock) (journal, s) =
    match (StoreCall.markCallbackReceived request).onJournal clock journal with
    | (.error x, after) => (.error x, after, s)
    | (.ok found, after) => (.ok found, after, s) := by
  have step : (markCallback request).exec (respond clock) (journal, s) =
      (Prog.ofExcept ((StoreCall.markCallbackReceived request).onJournal clock journal).1).exec
        (respond clock) (((StoreCall.markCallbackReceived request).onJournal clock journal).2, s) :=
    rfl
  rw [step]
  cases marked : (StoreCall.markCallbackReceived request).onJournal clock journal with
  | mk outcome after => cases outcome <;> rfl

/-- The exits of the action: the store refuses a null id, the transaction is
    unknown, or the journal has been written when the handlers are awaited. -/
theorem answered_eq : answered clock request journal s =
    match (StoreCall.markCallbackReceived request).onJournal clock journal with
    | (.error x, after) => (.error x, after, s)
    | (.ok none, after) => (.ok .notFound, after, s)
    | (.ok (some flow), after) =>
      match (publishAsync (updateOf flow) .none).exec notify s with
      | (.ok (), s') => (.ok .ok, after, s')
      | (.error x, s') => (.error x, after, s') := by
  have marks := mark_callback_exec clock request journal s
  rw [answered, confirmation, Prog.bind_eq, Prog.exec_bind, marks]
  rcases (StoreCall.markCallbackReceived request).onJournal clock journal with ⟨x | _ | flow, after⟩
  · rfl
  · rfl
  · have publishes := Prog.exec_on_right
      (fun (call : callSig.Op) journal => call.onJournal clock journal) notify
      (publishAsync (updateOf flow) .none) after s
    simp only [Prog.bind_eq, Prog.exec_bind, respond]
    rw [publishes]
    rcases (publishAsync (updateOf flow) .none).exec notify s with ⟨_ | ⟨⟩, s'⟩ <;> rfl

variable {request journal}

theorem answered_unknown
    (unknown : ∀ id, request.transactionId = some id → journal.lookup id = none) :
    (answered clock request journal s).1 ≠ .ok .ok ∧
      (answered clock request journal s).2 = (journal, s) := by
  rw [answered_eq]
  cases names : request.transactionId with
  | none => rw [on_journal_callback_null clock journal names]; simp
  | some id => rw [on_journal_callback clock journal names, unknown id names]; simp

/-- A callback on a known transaction is recorded whatever the handlers do, and
    answered with Ok exactly when all of them complete. -/
theorem answered_known {id : Str} {flow : ExampleConfirmationFlow}
    (names : request.transactionId = some id) (known : journal.lookup id = some flow) :
    ((answered clock request journal s).1 = .ok .ok ↔
      ∀ k < s.handlers.length, s.outcomes k = .completes) ∧
    (answered clock request journal s).2.1 = journal.insert id (callbackWith clock flow) := by
  rw [answered_eq, on_journal_callback clock journal names, known,
    ← deliver_ok_iff (updateOf (callbackWith clock flow)) .none s.handlers s, ← publish_delivers]
  dsimp only
  rcases (publishAsync (updateOf (callbackWith clock flow)) .none).exec notify s with ⟨_ | ⟨⟩, s'⟩
  · simp
  · simp

/-- The journal records the callback that made this clock reading. -/
def RecordsCallback (journal : Journal) (request : RusAuthConfirmationWebHookRequest)
    (callbackReceivedOn : DateTime) : Prop :=
  ∃ id flow, request.transactionId = some id ∧ journal.lookup id = some flow ∧
    flow.status = .success ∧ flow.callbackReceivedOn = some callbackReceivedOn

/-- Ok exactly when the callback is recorded, and no trace of it otherwise. -/
def AnswerAgrees (clock : Nat → DateTime) (request : RusAuthConfirmationWebHookRequest)
    (journal : Journal) (s : Subscriptions H) : Prop :=
  ((answered clock request journal s).1 = .ok .ok ↔
    RecordsCallback (answered clock request journal s).2.1 request (clock 1)) ∧
  ((answered clock request journal s).1 ≠ .ok .ok →
    (answered clock request journal s).2.1 = journal)

/-- The journal is written before the handlers are awaited, so the answer agrees
    with it just when there was nothing to write or no handler fails. -/
theorem answer_agrees_iff : AnswerAgrees clock request journal s ↔
    (∀ id, request.transactionId = some id → journal.lookup id = none) ∨
      ∀ k < s.handlers.length, s.outcomes k = .completes := by
  by_cases unknown : ∀ id, request.transactionId = some id → journal.lookup id = none
  · obtain ⟨refused, same⟩ := answered_unknown clock s unknown
    have unrecorded : ¬ RecordsCallback journal request (clock 1) := by
      rintro ⟨id, flow, names, stored, _⟩
      simp [unknown id names] at stored
    have agrees : AnswerAgrees clock request journal s := by
      rw [AnswerAgrees, same]
      exact ⟨iff_of_false refused unrecorded, fun _ => rfl⟩
    exact iff_of_true agrees (Or.inl unknown)
  · push Not at unknown
    obtain ⟨id, names, some'⟩ := unknown
    obtain ⟨flow, known⟩ := Option.ne_none_iff_exists'.mp some'
    obtain ⟨okIff, written⟩ := answered_known clock s names known
    have recorded : RecordsCallback (answered clock request journal s).2.1 request (clock 1) := by
      rw [written]
      exact ⟨id, callbackWith clock flow, names, AList.lookup_insert journal, rfl, rfl⟩
    constructor
    · intro agrees
      exact Or.inr (okIff.mp (agrees.1.mpr recorded))
    · rintro (none | all)
      · exact absurd (none id names) some'
      · have ok := okIff.mpr all
        exact ⟨iff_of_true ok recorded, fun fails => absurd ok fails⟩

end Controller

namespace FailingHandler

def journal : Journal :=
  (∅ : Journal).insert [116] (newFlow [116] ⟨some [116], none⟩ ⟨[55], 10, [], []⟩ 0)

def request : RusAuthConfirmationWebHookRequest := ⟨some [116], [55]⟩

def subscribed : Subscriptions Unit := ⟨[()], fun _ => .faultsTask (.external []), []⟩

end FailingHandler

theorem failing_handler_hides_record : ¬ AnswerAgrees (fun n => n + 1) FailingHandler.request
    FailingHandler.journal FailingHandler.subscribed := by
  intro agrees
  have fails : (answered (fun n => n + 1) FailingHandler.request FailingHandler.journal
      FailingHandler.subscribed).1 ≠ .ok .ok := by decide
  have changed : (answered (fun n => n + 1) FailingHandler.request FailingHandler.journal
      FailingHandler.subscribed).2.1.lookup [116] ≠ FailingHandler.journal.lookup [116] := by decide
  exact changed (by rw [agrees.2 fails])

end RusAuthExample
