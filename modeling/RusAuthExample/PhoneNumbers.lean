import RusAuthExample.ConfirmationEvidence
import RusAuthExample.HonestService

/-!
The client's number travels along three routes: the request of the start, the
form as it is when a check begins, and the body of a callback. Only the
transaction id ties them together, and no code compares the numbers.
-/
namespace RusAuthExample
open Utf16Text OperationPrograms InterleavedRuns KeyedMemory

variable {ς ι : Type}

def isDigit (u : UInt16) : Bool := 0x30 ≤ u.toNat && u.toNat ≤ 0x39

def digits (s : Str) : Str := s.filter isDigit

/-- The step from `s` to `s'` puts the flow, in status Success, into the journal. -/
def SetsSuccess (s s' : App ς) (id : Str) (flow : ExampleConfirmationFlow) : Prop :=
  s'.1.lookup id = some flow ∧ flow.status = .success ∧ s.1.lookup id ≠ some flow

section Runs
variable {rusAuth : Semantics rusAuthSig ς} {site : Site} {tasks : ι → AppTask}
  {service : ς} {circuits : Circuits}

theorem sets_success_put {s s' : App ς} {id : Str} {flow : ExampleConfirmationFlow} {e : FineSig.Op}
    {a : FineSig.Answer e} (did : fineEffect rusAuth s e a s') (sets : SetsSuccess s s' id flow) :
    e = .inl (.inl (.put id flow)) := by
  obtain ⟨stored, _, changed⟩ := sets
  have differ : s'.1 ≠ s.1 := fun same => changed (by rw [← same]; exact stored)
  match e with
  | .inr e => exact absurd did.2 differ
  | .inl (.inr ()) => exact absurd did.1 differ
  | .inl (.inl (.get id')) => exact absurd (effect_get did.1).2 differ
  | .inl (.inl (.put id' flow')) =>
    rw [effect_put did.1] at stored
    rcases lookup_insert_cases stored with ⟨rfl, rfl⟩ | ⟨_, before⟩
    · rfl
    · exact absurd before changed

variable [DecidableEq ι]

/-- A step that confirms a flow rests on evidence about the flow's own
    transaction, and the number of the flow is the one of the request that was
    answered with this transaction. -/
theorem confirmation_rests_on_transaction {issued : ς → Str → Prop}
    (ids : IssuesOnce rusAuth issued) {xs : OuterTrace StoreSig ι} {m m' : FinePool ς ι}
    {l : Label FineSig ι}
    (run : Exec (fun _ => fineEffect rusAuth) (finePool site tasks (∅, service, circuits)) xs m)
    (step : Step (fun _ => fineEffect rusAuth) m l m') {id : Str} {flow : ExampleConfirmationFlow}
    (sets : SetsSuccess m.shared m'.shared id flow) :
    flow.transactionId = id ∧
    (∃ i request, Answered xs i id request) ∧
    (∀ i request, Answered xs i id request → flow.clientPhoneNumber = request.phoneNumber) ∧
    OwnEvidence site (tasks l.1) l.1 xs id := by
  have wrote : l.2.1 = .inl (.inl (.put id flow)) := by
    cases step with
    | act ready did => exact sets_success_put did sets
  obtain ⟨⟨named, ⟨i, request, answered, number⟩, _, _⟩, own⟩ := step_supported run step wrote
  refine ⟨named, ⟨i, request, answered⟩, fun j request' answered' => ?_, own sets.2.1⟩
  have history : IdHistory issued m.shared.2.1 xs := id_history (J := storeEffect) ids run
  obtain ⟨_, rfl⟩ := history.once i j id request request' answered answered'
  exact number

end Runs

def CallbackNumbersAgree [DecidableEq ι] (rusAuth : Semantics rusAuthSig ς) (tasks : ι → AppTask)
    (p : FinePool ς ι) (tr : OuterTrace StoreSig ι) (q : FinePool ς ι) : Prop :=
  ∀ m l m' id flow request body, Performs (fun _ => fineEffect rusAuth) p tr q m l m' →
    SetsSuccess m.shared m'.shared id flow → tasks l.1 = .callback request →
    request.body = some body → digits body.clientPhoneNumber = digits flow.clientPhoneNumber

def CheckNumbersAgree [DecidableEq ι] (rusAuth : Semantics rusAuthSig ς) (tasks : ι → AppTask)
    (p : FinePool ς ι) (tr : OuterTrace StoreSig ι) (q : FinePool ς ι) : Prop :=
  ∀ m l m' id flow page request, Performs (fun _ => fineEffect rusAuth) p tr q m l m' →
    SetsSuccess m.shared m'.shared id flow → tasks l.1 = .checkStatus page →
    (l.1, ⟨.inr (.inl (.checkConfirmation request)), Except.ok ⟨.success⟩⟩) ∈ tr →
    digits request.phoneNumber = digits flow.clientPhoneNumber

namespace ThreeNumbers

inductive Party where
  | form
  | user
  | edit
  | verdict
  | check
  | webhook
  deriving DecidableEq

/-- The form is edited between the start and the check, and the callback comes
    with a third number. -/
def tasks : Party → AppTask
  | .form => .edit Sample.page ⟨lit "55555", 10⟩
  | .user => .submit Sample.page
  | .edit => .edit Sample.page ⟨lit "66666", 10⟩
  | .verdict => .decide [116] .success
  | .check => .checkStatus Sample.page
  | .webhook => .callback (Sample.callback (lit "+77777"))

abbrev RunTo (p : FinePool Verdicts Party) (tr : OuterTrace StoreSig Party)
    (q : FinePool Verdicts Party) : Prop := Exec (fun _ => fineEffect (honest Sample.site)) p tr q

def start : FinePool Verdicts Party := finePool Sample.site tasks (∅, fun _ => none, .initial)

/-- The run in four parts: up to the write of the check, that write, up to the
    write of the callback, and that write. -/
def part (p : FinePool Verdicts Party) (schedule : List Party) :
    OuterTrace StoreSig Party × FinePool Verdicts Party := replay Sample.fineAnswers p schedule

def asked := part start
  ([.form] ++ List.replicate 13 .user ++ [.edit, .verdict] ++ List.replicate 11 .check)

def checked := part asked.2 [.check]

def called := part checked.2 (List.replicate 5 .webhook)

def marked := part called.2 [.webhook]

def trace : OuterTrace StoreSig Party := asked.1 ++ checked.1 ++ called.1 ++ marked.1

theorem part_run (p : FinePool Verdicts Party) (schedule : List Party)
    (possible : replayable Sample.fineAnswers Sample.possible p schedule = true) :
    RunTo p (part p schedule).1 (part p schedule).2 :=
  replay_exec_of_possible (fun _ => Sample.honest_fine_answers) p schedule possible

theorem asked_run : RunTo start asked.1 asked.2 := part_run _ _ (by decide)

theorem checked_run : RunTo asked.2 checked.1 checked.2 := part_run _ _ (by decide)

theorem called_run : RunTo checked.2 called.1 called.2 := part_run _ _ (by decide)

theorem marked_run : RunTo called.2 marked.1 marked.2 := part_run _ _ (by decide)

theorem run : RunTo start trace marked.2 :=
  exec_trans (exec_trans (exec_trans asked_run checked_run) called_run) marked_run

def flow : ExampleConfirmationFlow :=
  newFlow [116] ⟨some [116], none⟩ ⟨lit "55555", 10, [], lit "secret"⟩ 0

def confirmedByCheck : ExampleConfirmationFlow := manualUpdate flow .success (some 0) 0

def confirmedByCallback : ExampleConfirmationFlow := callbackUpdate confirmedByCheck 0 0

def checkWrite : Label FineSig Party := (.check, ⟨.inl (.inl (.put [116] confirmedByCheck)), ()⟩)

def callbackWrite : Label FineSig Party :=
  (.webhook, ⟨.inl (.inl (.put [116] confirmedByCallback)), ()⟩)

theorem check_step : Step (fun _ => fineEffect (honest Sample.site)) asked.2 checkWrite checked.2 :=
  exec_single (show RunTo asked.2 [checkWrite] checked.2 from checked_run)

theorem callback_step :
    Step (fun _ => fineEffect (honest Sample.site)) called.2 callbackWrite marked.2 :=
  exec_single (show RunTo called.2 [callbackWrite] marked.2 from marked_run)

theorem check_confirms : SetsSuccess asked.2.shared checked.2.shared [116] confirmedByCheck :=
  ⟨by decide, rfl, by decide⟩

theorem callback_confirms :
    SetsSuccess called.2.shared marked.2.shared [116] confirmedByCallback :=
  ⟨by decide, rfl, by decide⟩

theorem performs_check : Performs (fun _ => fineEffect (honest Sample.site)) start trace marked.2
    asked.2 checkWrite checked.2 := by
  refine ⟨asked.1, called.1 ++ marked.1, ?_, asked_run, check_step,
    exec_trans called_run marked_run⟩
  show asked.1 ++ [checkWrite] ++ called.1 ++ marked.1 = _
  simp

theorem performs_callback : Performs (fun _ => fineEffect (honest Sample.site)) start trace marked.2
    called.2 callbackWrite marked.2 :=
  ⟨asked.1 ++ checked.1 ++ called.1, [], rfl,
    exec_trans (exec_trans asked_run checked_run) called_run, callback_step, .nil⟩

end ThreeNumbers

theorem edited_check_has_evidence :
    OwnEvidence Sample.site (ThreeNumbers.tasks .check) .check ThreeNumbers.asked.1 [116] :=
  (confirmation_rests_on_transaction honest_issues_once ThreeNumbers.asked_run
    ThreeNumbers.check_step ThreeNumbers.check_confirms).2.2.2

/-- An honest run that confirms one flow with two other numbers. -/
theorem confirmed_with_other_numbers :
    ThreeNumbers.RunTo ThreeNumbers.start ThreeNumbers.trace ThreeNumbers.marked.2 ∧
    ¬ CallbackNumbersAgree (honest Sample.site) ThreeNumbers.tasks ThreeNumbers.start
      ThreeNumbers.trace ThreeNumbers.marked.2 ∧
    ¬ CheckNumbersAgree (honest Sample.site) ThreeNumbers.tasks ThreeNumbers.start
      ThreeNumbers.trace ThreeNumbers.marked.2 := by
  refine ⟨ThreeNumbers.run, fun agree => ?_, fun agree => ?_⟩
  · have same := agree _ _ _ _ _ _ _ ThreeNumbers.performs_callback ThreeNumbers.callback_confirms
      rfl rfl
    exact absurd same (by decide)
  · have same := agree _ _ _ _ _ _ ⟨lit "66666", [116]⟩ ThreeNumbers.performs_check
      ThreeNumbers.check_confirms rfl (List.mem_of_getElem? (i := 22) rfl)
    exact absurd same (by decide)

end RusAuthExample
