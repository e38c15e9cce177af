import RusAuthExample.CircuitTurns
import RusAuthExample.PageActions
import RusAuthExample.TaskHistories

/-!
Calls of the facade in flight. The tasks are those of the application and, beside
them, calls of the facade that no page makes. How far a task has come with its
call is computed from what it did; every access to the store and to the session
is accounted for by that.
-/
namespace RusAuthExample
open Utf16Text OperationPrograms InterleavedRuns

variable {ς ι : Type}

inductive FacadeTask where
  | app (task : AppTask)
  | start (session : SessionId) (phoneNumber callbackUrl : Str) (expirationMinute : Int)
  | check (session : SessionId) (phoneNumber : Str)
  deriving DecidableEq, Repr

namespace FacadeTask

def program (site : Site) : FacadeTask → AppM (Option ExampleConfirmationFlow)
  | .app task => (task.program site).bind fun _ => .ret none
  | .start session phoneNumber callbackUrl expirationMinute =>
    (startConfirmationAsync site session phoneNumber callbackUrl expirationMinute).bind
      fun flow => .ret (some flow)
  | .check session phoneNumber =>
    (checkCurrentConfirmationAsync session phoneNumber).bind fun flow => .ret (some flow)

def circuit : FacadeTask → Option SessionId
  | .app task => task.circuit
  | .start session _ _ _ => some session
  | .check session _ => some session

end FacadeTask

abbrev FacadePool (ς ι : Type) :=
  Pool FineSig Exn (Option ExampleConfirmationFlow) (App ς) ι

def facadePool (site : Site) (tasks : ι → FacadeTask) (s : App ς) : FacadePool ς ι :=
  ⟨s, fun i => ((tasks i).program site).interp withAccesses⟩

/-- A call on its way: the transaction its check asked about with the answer, the
    same once it has arrived, and the record it has written and not announced. -/
structure CallProgress where
  asked : Option (Str × CallConfirmationStatus)
  applied : Option (Str × CallConfirmationStatus)
  written : Option (Str × ExampleConfirmationFlow)

namespace CallProgress

def fresh : CallProgress := ⟨none, none, none⟩

def next (c : CallProgress) : Performed FineSig → CallProgress
  | ⟨.inr (.inl (.callToConfirm _)), _⟩ => { c with asked := none, applied := none }
  | ⟨.inr (.inl (.checkConfirmation request)), .ok response⟩ =>
    { c with asked := some (request.transactionId, response.status), applied := none }
  | ⟨.inr (.inl (.checkConfirmation _)), .error _⟩ => { c with asked := none, applied := none }
  | ⟨.inr (.inr .arrive), _⟩ => { c with applied := c.asked }
  | ⟨.inl (.inl (.put id flow)), _⟩ => { c with written := some (id, flow) }
  | ⟨.inr (.inr (.assign _ (.infoMessage (some _)))), _⟩ => { c with written := none }
  | _ => c

end CallProgress

def progress (past : List (Performed FineSig)) : CallProgress := past.foldl .next .fresh

theorem progress_next {past : List (Performed FineSig)} {c : CallProgress} (known : progress past = c)
    (e : FineSig.Op) (a : FineSig.Answer e) : progress (past ++ [⟨e, a⟩]) = c.next ⟨e, a⟩ := by
  rw [progress, List.foldl_append, ← known]
  rfl

theorem progress_snoc (past : List (Performed FineSig)) (e : FineSig.Op) (a : FineSig.Answer e) :
    progress (past ++ [⟨e, a⟩]) = (progress past).next ⟨e, a⟩ := progress_next rfl e a

theorem written_cases (c : CallProgress) (e : FineSig.Op) (a : FineSig.Answer e) :
    (c.next ⟨e, a⟩).written = c.written ∨
    (∃ id flow, e = .inl (.inl (.put id flow)) ∧ (c.next ⟨e, a⟩).written = some (id, flow)) ∨
    ∃ session message, e = .inr (.inr (.assign session (.infoMessage (some message)))) ∧
      (c.next ⟨e, a⟩).written = none := by
  match e, a with
  | .inl (.inl (.get _)), _ => exact Or.inl rfl
  | .inl (.inl (.put id flow)), _ => exact Or.inr (Or.inl ⟨id, flow, rfl, rfl⟩)
  | .inl (.inr _), _ => exact Or.inl rfl
  | .inr (.inl (.checkConfirmation _)), reply =>
    rcases (reply : Except Exn RusCheckConfirmationResponse) with x | response
    · exact Or.inl rfl
    · exact Or.inl rfl
  | .inr (.inl (.callToConfirm _)), _ => exact Or.inl rfl
  | .inr (.inl (.decide _ _)), _ => exact Or.inl rfl
  | .inr (.inl (.sendCallback _)), _ => exact Or.inl rfl
  | .inr (.inr e), _ =>
    cases e with
    | assign session assignment =>
      cases assignment with
      | infoMessage message =>
        cases message with
        | some message => exact Or.inr (Or.inr ⟨session, message, rfl, rfl⟩)
        | none => exact Or.inl rfl
      | _ => exact Or.inl rfl
    | _ => exact Or.inl rfl

theorem written_next {c : CallProgress} {e : FineSig.Op} {a : FineSig.Answer e} {id : Str}
    {flow : ExampleConfirmationFlow} (written : (c.next ⟨e, a⟩).written = some (id, flow)) :
    c.written = some (id, flow) ∨ e = .inl (.inl (.put id flow)) := by
  rcases written_cases c e a with same | ⟨id', flow', is, now⟩ | ⟨_, _, _, now⟩
  · exact Or.inl (same.symm.trans written)
  · cases now.symm.trans written
    exact Or.inr is
  · cases now.symm.trans written

theorem applied_next {c : CallProgress} {e : FineSig.Op} {a : FineSig.Answer e}
    {asked : Str × CallConfirmationStatus} (applied : (c.next ⟨e, a⟩).applied = some asked) :
    e = .inr (.inr .arrive) ∧ c.asked = some asked ∨ ¬ Waits e ∧ c.applied = some asked := by
  match e, a with
  | .inl (.inl (.get _)), _ => exact Or.inr ⟨id, applied⟩
  | .inl (.inl (.put _ _)), _ => exact Or.inr ⟨id, applied⟩
  | .inl (.inr _), _ => exact Or.inr ⟨id, applied⟩
  | .inr (.inl (.checkConfirmation _)), reply =>
    rcases (reply : Except Exn RusCheckConfirmationResponse) with x | response
    · cases applied
    · cases applied
  | .inr (.inl (.callToConfirm _)), _ => cases applied
  | .inr (.inl (.decide _ _)), _ => exact Or.inr ⟨id, applied⟩
  | .inr (.inl (.sendCallback _)), _ => exact Or.inr ⟨id, applied⟩
  | .inr (.inr e), _ =>
    cases e with
    | arrive => exact Or.inl ⟨rfl, applied⟩
    | assign session assignment =>
      cases assignment with
      | infoMessage message => cases message <;> exact Or.inr ⟨id, applied⟩
      | _ => exact Or.inr ⟨id, applied⟩
    | _ => exact Or.inr ⟨id, applied⟩

theorem written_put {past : List (Performed FineSig)} {id : Str} {flow : ExampleConfirmationFlow}
    (written : (progress past).written = some (id, flow)) :
    (⟨.inl (.inl (.put id flow)), ()⟩ : Performed FineSig) ∈ past := by
  induction past using List.reverseRecOn with
  | nil => cases written
  | append_singleton past o ih =>
    obtain ⟨e, a⟩ := o
    rw [progress_snoc _ e a] at written
    rcases written_next written with before | rfl
    · exact List.mem_append_left _ (ih before)
    · exact List.mem_append_right _ List.mem_cons_self

def TrackedBy (past : List (Performed FineSig)) (session : SessionId) (id : Str) : Prop :=
  (⟨.inr (.inr (.currentTransactionId session)), some id⟩ : Performed FineSig) ∈ past

def RepliedWith (past : List (Performed FineSig)) (id : Str) : Prop :=
  ∃ request, ∃ response : RusAuthCallToConfirmResponse, response.transactionId = some id ∧
    (⟨.inr (.inl (.callToConfirm request)), Except.ok response⟩ : Performed FineSig) ∈ past

def Found (past : List (Performed FineSig)) (id : Str) (flow : ExampleConfirmationFlow) : Prop :=
  (⟨.inl (.inl (.get id)), some flow⟩ : Performed FineSig) ∈ past

/-- The record of a start that RusAuth has answered. -/
def NewRecord (past : List (Performed FineSig)) (id : Str) (flow : ExampleConfirmationFlow) : Prop :=
  RepliedWith past id ∧ flow.transactionId = id ∧ (progress past).applied = none

/-- A record that was read, with the status of a callback or of the answer that has
    arrived. -/
def UpdatedRecord (circuit : Option SessionId) (past : List (Performed FineSig)) (id : Str)
    (flow : ExampleConfirmationFlow) : Prop :=
  ∃ old, Found past id old ∧ flow.transactionId = old.transactionId ∧
    match circuit with
    | none => flow.status = .success
    | some session => TrackedBy past session id ∧
      (progress past).applied = some (id, flow.status)

/-- Why a task of the circuit may assign to a property of the session. -/
def MayAssign (circuit : Option SessionId) (past : List (Performed FineSig)) (session : SessionId) :
    Assignment → Prop
  | .currentTransactionId id => circuit = some session ∧ RepliedWith past id ∧
    (progress past).applied = none ∧ ∃ flow, (progress past).written = some (id, flow)
  | .infoMessage (some message) =>
    match circuit with
    | none => message ≠ statusMessage .success
    | some session' => session' = session ∧ ∃ id flow, (progress past).written = some (id, flow) ∧
      (message = statusMessage .success →
        flow.status = .success ∧ (progress past).applied = some (id, .success))
  | .infoMessage none => circuit = some session
  | .errorMessage (some _) => circuit = some session
  | .errorMessage none => True

/-- What the past of a task of the circuit must contain for its next operation. -/
def Accounted (circuit : Option SessionId) (past : List (Performed FineSig)) : FineSig.Op → Prop
  | .inl (.inl (.get id)) => ∀ session, circuit = some session → TrackedBy past session id
  | .inl (.inl (.put id flow)) =>
    circuit ≠ none ∧ NewRecord past id flow ∨ UpdatedRecord circuit past id flow
  | .inr (.inl (.callToConfirm _)) => circuit ≠ none ∧ (progress past).written = none
  | .inr (.inl (.checkConfirmation request)) => (progress past).written = none ∧
    ∃ session, circuit = some session ∧ TrackedBy past session request.transactionId
  | .inr (.inr .arrive) => circuit ≠ none ∧ (progress past).written = none
  | .inr (.inr (.assign session assignment)) => MayAssign circuit past session assignment
  | _ => True

section Messages

theorem lit_of_list (l : List Char) : lit (String.ofList l) = l.flatMap charUnits := by
  rw [lit, String.toList_ofList]

theorem texts_differ {s t : Str} (n : Nat) {u v : UInt16} (left : s[n]? = some u)
    (right : t[n]? = some v) (different : u ≠ v) : s ≠ t := by
  rintro rfl
  exact different (Option.some.inj (left.symm.trans right))

set_option maxRecDepth 10000 in
theorem success_begins :
    (statusMessage .success)[0]? = some 1056 ∧ (statusMessage .success)[7]? = some 1087 := by
  have begins : statusMessage .success =
      ('Р' :: 'о' :: 'с' :: 'А' :: 'в' :: 'т' :: ' ' :: 'п' :: _ : List Char).flatMap charUnits :=
    lit_of_list _
  rw [begins]
  exact ⟨rfl, rfl⟩

set_option maxRecDepth 10000 in
theorem started_not_success : startedMessage ≠ statusMessage .success := by
  have begins : startedMessage = ('З' :: _ : List Char).flatMap charUnits := lit_of_list _
  exact texts_differ 0 (by rw [begins]; rfl) success_begins.1 (by decide)

set_option maxRecDepth 10000 in
theorem updated_not_success : updatedMessage ≠ statusMessage .success := by
  have begins : updatedMessage = ('В' :: _ : List Char).flatMap charUnits := lit_of_list _
  exact texts_differ 0 (by rw [begins]; rfl) success_begins.1 (by decide)

set_option maxRecDepth 10000 in
theorem callback_not_success (transactionId : Str) :
    callbackMessage transactionId ≠ statusMessage .success := by
  have begins : lit "Получён callback по транзакции " =
      ('П' :: _ : List Char).flatMap charUnits := lit_of_list _
  exact texts_differ 0 (by rw [callbackMessage, begins]; rfl) success_begins.1 (by decide)

set_option maxRecDepth 10000 in
/-- The message of a check tells Success from every other status. -/
theorem success_of_message {status : CallConfirmationStatus}
    (same : statusMessage status = statusMessage .success) : status = .success := by
  have waiting : statusMessage .unhandled ≠ statusMessage .success := by
    have begins : statusMessage .unhandled =
        ('Р' :: 'о' :: 'с' :: 'А' :: 'в' :: 'т' :: ' ' :: 'в' :: _ : List Char).flatMap charUnits :=
      lit_of_list _
    exact texts_differ 7 (by rw [begins]; rfl) success_begins.2 (by decide)
  cases status with
  | success => rfl
  | unhandled => exact absurd same waiting
  | other value => exact absurd same waiting
  | failed =>
    have begins : statusMessage .failed =
        ('Р' :: 'о' :: 'с' :: 'А' :: 'в' :: 'т' :: ' ' :: 'с' :: _ : List Char).flatMap charUnits :=
      lit_of_list _
    exact absurd same (texts_differ 7 (by rw [begins]; rfl) success_begins.2 (by decide))
  | expired =>
    have begins : statusMessage .expired =
        ('Р' :: 'о' :: 'с' :: 'А' :: 'в' :: 'т' :: ' ' :: 'с' :: _ : List Char).flatMap charUnits :=
      lit_of_list _
    exact absurd same (texts_differ 7 (by rw [begins]; rfl) success_begins.2 (by decide))

end Messages

section Tasks
variable {site : Site}

/-- No record of the call is waiting for its message. -/
def Announced (past : List (Performed FineSig)) : Prop := (progress past).written = none

instance (past : List (Performed FineSig)) : Decidable (Announced past) :=
  inferInstanceAs (Decidable ((progress past).written = none))

theorem announced_of_waits {circuit : Option SessionId} {past : List (Performed FineSig)}
    {e : FineSig.Op} (accounted : Accounted circuit past e) (waits : Waits e) : Announced past := by
  rcases e with e | e | e
  · exact waits.elim
  · cases e with
    | callToConfirm request => exact accounted.2
    | checkConfirmation request => exact accounted.1
    | _ => exact waits.elim
  · cases e with
    | arrive => exact accounted.2
    | _ => exact waits.elim

theorem announced_of {past : List (Performed FineSig)} {c : CallProgress} (known : progress past = c)
    (none : c.written = none) : Announced past := by
  rw [Announced, known, none]

theorem start_accounted (session : SessionId) (phoneNumber callbackUrl : Str)
    (expirationMinute : Int) {past : List (Performed FineSig)} (known : progress past = .fresh) :
    ((startConfirmationAsync site session phoneNumber callbackUrl expirationMinute).interp
      withAccesses).Follows (Accounted (some session)) (fun _ done => Announced done) past := by
  unfold startConfirmationAsync
  generalize callToConfirmRequest site phoneNumber callbackUrl expirationMinute = request
  refine Prog.follows_op ⟨nofun, announced_of known rfl⟩
    fun (reply : Except Exn RusAuthCallToConfirmResponse) => ?_
  have replied := progress_next known (.inr (.inl (.callToConfirm request))) reply
  refine Prog.follows_op ⟨nofun, announced_of replied rfl⟩ fun _ => ?_
  have arrived := progress_next replied (.inr (.inr .arrive)) ()
  rcases reply with x | ⟨_ | id, number⟩
  · exact announced_of arrived rfl
  · exact Prog.follows_op trivial fun (t : DateTime) =>
      announced_of (progress_next arrived (.inl (.inr ())) t) rfl
  · refine Prog.follows_op trivial fun (t : DateTime) => ?_
    let flow := newFlow id ⟨some id, number⟩ request t
    have read := progress_next arrived (.inl (.inr ())) t
    refine Prog.follows_op (Or.inl ⟨nofun, ⟨request, ⟨some id, number⟩, rfl, by simp⟩, rfl,
      congrArg CallProgress.applied read⟩) fun _ => ?_
    have wrote := progress_next read (.inl (.inl (.put id flow))) ()
    refine Prog.follows_op ⟨rfl, ⟨request, ⟨some id, number⟩, rfl, by simp⟩,
      congrArg CallProgress.applied wrote, flow, congrArg CallProgress.written wrote⟩ fun _ => ?_
    have tracked := progress_next
      (progress_next wrote (.inr (.inr (.assign session (.currentTransactionId id)))) ())
      (.inr (.inr (.assign session (.errorMessage none)))) ()
    refine Prog.follows_op trivial fun _ => Prog.follows_op
      ⟨rfl, id, flow, congrArg CallProgress.written tracked, fun same => ?_⟩ fun _ => ?_
    · exact absurd same started_not_success
    · have told := progress_next tracked
        (.inr (.inr (.assign session (.infoMessage (some startedMessage))))) ()
      exact Prog.follows_op trivial fun _ => announced_of
        (progress_next told (.inr (.inr (.assign session (.errorMessage none)))) ()) rfl

/-- The ways a check can fail. -/
def CheckFails (done : List (Performed FineSig)) (x : Exn) : Prop :=
  x = .invalidOperation noTransactionMessage ∨
  (∃ request, (⟨.inr (.inl (.checkConfirmation request)), Except.error x⟩ : Performed FineSig) ∈ done) ∨
  ∃ id, (⟨.inl (.inl (.get id)), none⟩ : Performed FineSig) ∈ done

theorem announce_accounted {session : SessionId} {id : Str} (flow : ExampleConfirmationFlow)
    {past : List (Performed FineSig)} (updated : UpdatedRecord (some session) past id flow) :
    (Prog.op (S := FineSig) (.inl (.inl (.put id flow))) fun _ =>
      (setInfo session (statusMessage flow.status)).interp withAccesses |>.bind fun _ =>
        .ret flow).Follows (Accounted (some session))
      (fun r done => Announced done ∧ ∀ x, r = .error x → CheckFails done x) past := by
  obtain ⟨old, found, same, tracked, applied⟩ := updated
  refine Prog.follows_op (Or.inr ⟨old, found, same, tracked, applied⟩) fun _ => ?_
  have wrote := progress_snoc past (.inl (.inl (.put id flow))) ()
  refine Prog.follows_op ⟨rfl, id, flow, congrArg CallProgress.written wrote, fun shown => ?_⟩
    fun _ => ?_
  · have success := success_of_message shown
    exact ⟨success, (congrArg CallProgress.applied wrote).trans (applied.trans (by rw [success]))⟩
  · have told := progress_next wrote
      (.inr (.inr (.assign session (.infoMessage (some (statusMessage flow.status)))))) ()
    exact Prog.follows_op trivial fun _ => ⟨announced_of
      (progress_next told (.inr (.inr (.assign session (.errorMessage none)))) ()) rfl, nofun⟩

/-- What a check does once the status RusAuth has told has arrived. -/
theorem mark_accounted {session : SessionId} {id : Str} {status : CallConfirmationStatus}
    {past : List (Performed FineSig)} (tracked : TrackedBy past session id)
    (told : progress past = ⟨some (id, status), some (id, status), none⟩) :
    (((callStore (.markManualStatus id status)).bind (announceStatus session status)).interp
      withAccesses).Follows (Accounted (some session))
      (fun r done => Announced done ∧ ∀ x, r = .error x → CheckFails done x) past := by
  refine Prog.follows_op ?_ fun (found : Option ExampleConfirmationFlow) => ?_
  · rintro _ ⟨⟩
    exact tracked
  have looked := progress_next told (.inl (.inl (.get id))) found
  cases found with
  | none => exact ⟨announced_of looked rfl, fun x failed => Or.inr (Or.inr ⟨id, by simp⟩)⟩
  | some existing =>
    have later : ∀ dates, TrackedBy (past ++ [⟨.inl (.inl (.get id)), some existing⟩] ++ dates)
        session id := fun dates => List.mem_append_left dates (List.mem_append_left _ tracked)
    cases status with
    | unhandled =>
      refine Prog.follows_op trivial fun (t : DateTime) => ?_
      have dated := progress_next looked (.inl (.inr ())) t
      exact announce_accounted (manualUpdate existing .unhandled existing.completedOn t)
        ⟨existing, by simp [Found], rfl, later _, congrArg CallProgress.applied dated⟩
    | _ =>
      -- a decided status has its completion date read first
      refine Prog.follows_op trivial fun (c : DateTime) =>
        Prog.follows_op trivial fun (t : DateTime) => ?_
      have dated := progress_next (progress_next looked (.inl (.inr ())) c) (.inl (.inr ())) t
      exact announce_accounted (manualUpdate existing _ (some c) t)
        ⟨existing, by simp [Found], rfl, List.mem_append_left _ (later _),
          congrArg CallProgress.applied dated⟩

theorem check_accounted (session : SessionId) (phoneNumber : Str) {past : List (Performed FineSig)}
    (known : progress past = .fresh) :
    ((checkCurrentConfirmationAsync session phoneNumber).interp withAccesses).Follows
      (Accounted (some session))
      (fun r done => Announced done ∧ ∀ x, r = .error x → CheckFails done x) past := by
  rw [check_eq]
  refine Prog.follows_op trivial fun (tracked : Option Str) => ?_
  have read := progress_next known (.inr (.inr (.currentTransactionId session))) tracked
  cases tracked with
  | none =>
    refine ⟨announced_of read rfl, fun x failed => Or.inl ?_⟩
    cases failed
    rfl
  | some id =>
    refine Prog.follows_op ⟨announced_of read rfl, session, rfl, by simp [TrackedBy]⟩
      fun (reply : Except Exn RusCheckConfirmationResponse) => ?_
    have replied := progress_next read (.inr (.inl (.checkConfirmation ⟨phoneNumber, id⟩))) reply
    cases reply with
    | error x =>
      refine Prog.follows_op ⟨nofun, announced_of replied rfl⟩ fun _ => ?_
      refine ⟨announced_of (progress_next replied (.inr (.inr .arrive)) ()) rfl, fun y failed => ?_⟩
      cases failed
      exact Or.inr (Or.inl ⟨⟨phoneNumber, id⟩, by simp⟩)
    | ok response =>
      refine Prog.follows_op ⟨nofun, announced_of replied rfl⟩ fun _ => ?_
      exact mark_accounted (by simp [TrackedBy])
        (progress_next replied (.inr (.inr .arrive)) ())

theorem shown_accounted (session : SessionId) {past : List (Performed FineSig)}
    (quiet : Announced past) :
    ((shownTransactionId session).interp withAccesses).Follows (Accounted (some session))
      (fun _ done => Announced done) past := by
  have again : ∀ {past : List (Performed FineSig)}, Announced past →
      ((currentTransactionId session).interp withAccesses).Follows (Accounted (some session))
        (fun _ done => Announced done) past := fun quiet =>
    Prog.follows_op trivial fun (tracked : Option Str) => announced_of
      (progress_snoc _ (.inr (.inr (.currentTransactionId session))) tracked) quiet
  refine Prog.follows_op trivial fun (tracked : Option Str) => ?_
  have read := announced_of
    (progress_snoc past (.inr (.inr (.currentTransactionId session))) tracked) quiet
  cases tracked with
  | none => exact again read
  | some id =>
    by_cases blank : isBlank id = true
    · show ((Prog.bind (if isBlank id then Prog.ret none else callStore (.get id)) _).interp
        withAccesses).Follows _ _ _
      rw [if_pos blank]
      exact again read
    · show ((Prog.bind (if isBlank id then Prog.ret none else callStore (.get id)) _).interp
        withAccesses).Follows _ _ _
      rw [if_neg blank]
      refine Prog.follows_op ?_ fun (found : Option ExampleConfirmationFlow) => ?_
      · rintro _ ⟨⟩
        simp [TrackedBy]
      · have looked := announced_of (progress_snoc _ (.inl (.inl (.get id))) found) read
        cases found with
        | none => exact again looked
        | some flow => exact looked

theorem execute_accounted (page : Page) {action : AppM Unit}
    (acts : ∀ past, progress past = .fresh → (action.interp withAccesses).Follows
      (Accounted (some page.session)) (fun _ done => Announced done) past) :
    ((executeAsync page action).interp withAccesses).Follows (Accounted (some page.session))
      (fun _ done => Announced done) [] := by
  let closes : Except Exn Unit → AppM Unit := fun outcome =>
    (setIsBusy page false).bind fun _ => Prog.ofExcept outcome
  rw [execute_eq]
  refine Prog.follows_op trivial fun _ => Prog.follows_op trivial fun _ =>
    Prog.follows_op rfl fun _ => Prog.follows_op trivial fun _ => ?_
  show (((attempted page action).attempt.bind closes).interp withAccesses).Follows _ _ _
  rw [Prog.interp_bind, Prog.interp_attempt with_accesses_total, attempted,
    Prog.interp_recover with_accesses_total]
  refine Prog.follows_bind (Q := fun _ done => Announced done) (Prog.follows_attempt
    (Q := fun _ done => Announced done) (Prog.follows_recover
      (Q := fun _ done => Announced done) ?_ (fun _ _ quiet => quiet) ?_)
    fun _ _ quiet => quiet) ?_ fun _ _ quiet => quiet
  · exact Prog.follows_interp_bind (acts _ rfl) (fun _ done quiet => Prog.follows_interp_bind
      (shown_accounted page.session quiet) (fun _ _ quiet => quiet) fun _ _ quiet => quiet)
      fun _ _ quiet => quiet
  · intro ex done quiet
    refine Prog.follows_op rfl fun _ => Prog.follows_op rfl fun _ =>
      Prog.follows_op trivial fun _ => ?_
    have raised := announced_of (progress_snoc _
      (.inr (.inr (.assign page.session (.errorMessage (some ex.message))))) ()) quiet
    have reported := announced_of
      (progress_snoc _ (.inr (.inr (.assign page.session (.infoMessage none)))) ()) raised
    exact announced_of
      (progress_snoc _ (.inr (.inr (.setLocalError page (some ex.message)))) ()) reported
  · intro outcome done quiet
    refine Prog.follows_op trivial fun _ => ?_
    have lowered := announced_of
      (progress_snoc _ (.inr (.inr (.setIsBusy page false))) ()) quiet
    cases outcome <;> exact lowered

theorem call_accounted (page : Page) (model : AuthorizeFormModel) (action : PageAction)
    {past : List (Performed FineSig)} (known : progress past = .fresh) :
    ((action.facadeCall site page model).interp withAccesses).Follows
      (Accounted (some page.session)) (fun _ done => Announced done) past := by
  cases action with
  | submit => exact start_accounted page.session _ _ _ known
  | checkStatus =>
    exact Prog.follows_weaken (check_accounted page.session _ known) fun _ _ ends => ends.1

theorem action_accounted (page : Page) (action : PageAction) :
    ((action.program site page).interp withAccesses).Follows (Accounted (some page.session))
      (fun _ done => Announced done) [] := by
  let calls : AuthorizeFormModel → AppM Unit := fun model =>
    (action.facadeCall site page model).bind fun _ => .ret ()
  have called : ∀ model {past}, progress past = .fresh → ((calls model).interp withAccesses).Follows
      (Accounted (some page.session)) (fun _ done => Announced done) past := fun model _ known =>
    Prog.follows_interp_bind (call_accounted page model action known) (fun _ _ quiet => quiet)
      fun _ _ quiet => quiet
  have acts : ∀ past, progress past = .fresh → (((formModel page).bind calls).interp
      withAccesses).Follows (Accounted (some page.session)) (fun _ done => Announced done) past :=
    fun past known => Prog.follows_op trivial fun (model : AuthorizeFormModel) =>
      called model (progress_next known (.inr (.inr (.model page))) model)
  cases action <;> exact execute_accounted page acts

theorem publish_accounted (e : AppSig.Op) (used : OfPublish e) :
    (withAccesses e).Uses fun e => ∀ past, Accounted none past e := by
  match e with
  | .inl (.get _) => exact ⟨fun _ => nofun, fun _ => trivial⟩
  | .inr (.inr .handlers) => exact ⟨fun _ => trivial, fun _ => trivial⟩
  | .inr (.inr (.currentTransactionId _)) => exact ⟨fun _ => trivial, fun _ => trivial⟩
  | .inr (.inr (.setLocalError _ _)) => exact ⟨fun _ => trivial, fun _ => trivial⟩
  | .inr (.inr (.stateHasChanged _)) => exact ⟨fun _ => trivial, fun _ => trivial⟩
  | .inr (.inr (.assign _ (.errorMessage none))) => exact ⟨fun _ => trivial, fun _ => trivial⟩
  | .inr (.inr (.assign _ (.infoMessage (some message)))) =>
    refine ⟨fun _ => ?_, fun _ => trivial⟩
    rcases used with rfl | ⟨transactionId, rfl⟩
    · exact updated_not_success
    · exact callback_not_success transactionId

theorem confirmation_accounted (body : RusAuthConfirmationWebHookRequest)
    (past : List (Performed FineSig)) :
    (((confirmation body).interp withPages).interp withAccesses).Follows (Accounted none)
      (fun _ _ => True) past := by
  obtain ⟨id, number⟩ := body
  cases id with
  | none => trivial
  | some id =>
    refine Prog.follows_op nofun fun (found : Option ExampleConfirmationFlow) => ?_
    cases found with
    | none => trivial
    | some existing =>
      refine Prog.follows_op trivial fun (c : DateTime) =>
        Prog.follows_op trivial fun (t : DateTime) => ?_
      refine Prog.follows_op (Or.inr ⟨existing, by simp [Found], rfl, rfl⟩) fun _ => ?_
      show (Prog.interp withAccesses (Prog.interp withPages
        ((publishAsync (updateOf (callbackUpdate existing c t)) .none).onRight.bind fun _ =>
          .ret ActionResult.ok))).Follows _ _ _
      rw [Prog.interp_bind, Prog.interp_bind]
      refine Prog.follows_bind (Prog.follows_of_uses
        (Prog.uses_interp (publish_uses _ _) publish_accounted) (fun past e always => always past) _)
        (fun _ _ _ => trivial) fun _ _ _ => trivial

theorem callback_accounted (request : CallbackRequest) :
    (((handleCallback site request).bind fun result => .ret (some result)).interp
      withAccesses).Follows (Accounted none) (fun _ _ => True) [] := by
  refine Prog.follows_op trivial fun _ => Prog.follows_op trivial fun _ => ?_
  refine Prog.follows_interp_bind (Q := fun _ _ => True) ?_ (fun _ _ _ => trivial) fun _ _ _ => trivial
  dsimp only [callbackEndpoint]
  split
  · trivial
  · trivial
  · exact confirmation_accounted _ _

/-- Every access of every task is accounted for by its past, and none of a circuit
    ends with a record not announced. -/
theorem task_accounted (site : Site) (task : FacadeTask) :
    ((task.program site).interp withAccesses).Follows (Accounted task.circuit)
      (fun _ done => task.circuit ≠ none → Announced done) [] := by
  have action : ∀ page (action : PageAction),
      ((((action.program site page).bind fun _ => .ret (none : Option ActionResult)).bind
        fun _ => .ret (none : Option ExampleConfirmationFlow)).interp withAccesses).Follows
        (Accounted (some page.session)) (fun _ done => some page.session ≠ none → Announced done)
        [] := fun page action =>
    Prog.follows_interp_bind (Q := fun _ done => Announced done) (Prog.follows_interp_bind
      (action_accounted page action) (fun _ _ quiet => quiet) fun _ _ quiet => quiet)
      (fun _ _ quiet _ => quiet) fun _ _ quiet _ => quiet
  cases task with
  | start session phoneNumber callbackUrl expirationMinute =>
    exact Prog.follows_interp_bind
      (start_accounted session phoneNumber callbackUrl expirationMinute rfl)
      (fun _ _ quiet _ => quiet) fun _ _ quiet _ => quiet
  | check session phoneNumber =>
    exact Prog.follows_interp_bind (check_accounted session phoneNumber rfl)
      (fun _ _ ends _ => ends.1) fun _ _ ends _ => ends.1
  | app task =>
    cases task with
    | openPage page => exact Prog.follows_op trivial fun _ _ => rfl
    | disposePage page => exact Prog.follows_op trivial fun _ _ => rfl
    | edit page model => exact Prog.follows_op trivial fun _ _ => rfl
    | decide id status => exact Prog.follows_op trivial fun _ => nofun
    | submit page => exact action page .submit
    | checkStatus page => exact action page .checkStatus
    | refresh page =>
      obtain ⟨kind, session, number⟩ := page
      cases kind with
      | account =>
        refine Prog.follows_op rfl fun _ => Prog.follows_op trivial fun _ =>
          Prog.follows_op trivial fun (outcome : Except Exn Unit) => ?_
        cases outcome <;> exact fun _ => rfl
      | authorize =>
        refine Prog.follows_op rfl fun _ => Prog.follows_op trivial fun _ =>
          Prog.follows_op trivial fun _ => Prog.follows_op trivial
            fun (outcome : Except Exn Unit) => ?_
        cases outcome <;> exact fun _ => rfl
    | callback request =>
      exact Prog.follows_interp_bind (callback_accounted request) (fun _ _ _ => nofun)
        fun _ _ _ => nofun

end Tasks
end RusAuthExample
