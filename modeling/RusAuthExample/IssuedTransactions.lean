import RusAuthExample.ApplicationRuns
import RusAuthExample.TaskHistories

/-!
What follows from RusAuth never returning the same transaction id twice: an id
belongs to one request, a flow of the journal goes back to one start, and no
start ever finds its transaction in the journal already.
-/
namespace RusAuthExample
open Utf16Text OperationPrograms InterleavedRuns KeyedMemory

variable {ς ι τ X A : Type} {S : Signature}

/-- RusAuth remembers the ids it has returned, and returns new ones only. -/
structure IssuesOnce (rusAuth : Semantics rusAuthSig ς) (issued : ς → Str → Prop) : Prop where
  fresh : ∀ s request response s' id, rusAuth s (.callToConfirm request) (.ok response) s' →
    response.transactionId = some id → ¬ issued s id ∧ issued s' id
  kept : ∀ s e a s' id, rusAuth s e a s' → issued s id → issued s' id

def Answered (tr : OuterTrace S ι) (i : ι) (id : Str) (request : RusAuthCallToConfirmRequest) :
    Prop :=
  ∃ response : RusAuthCallToConfirmResponse, response.transactionId = some id ∧
    (i, ⟨.inr (.inl (.callToConfirm request)), Except.ok response⟩) ∈ tr

structure IdHistory (issued : ς → Str → Prop) (service : ς) (tr : OuterTrace S ι) : Prop where
  known : ∀ i id request, Answered tr i id request → issued service id
  once : ∀ i j id request request', Answered tr i id request → Answered tr j id request' →
    i = j ∧ request = request'

theorem answered_later {tr tr' : OuterTrace S ι} (later : tr <+: tr') {i : ι} {id : Str}
    {request : RusAuthCallToConfirmRequest} (answered : Answered tr i id request) :
    Answered tr' i id request := by
  obtain ⟨response, names, member⟩ := answered
  exact ⟨response, names, later.subset member⟩

section Ids
variable {rusAuth : Semantics rusAuthSig ς} {issued : ς → Str → Prop} {J : Semantics S τ}
  {s s' : τ × ς × Circuits} {tr : OuterTrace S ι} {i : ι} {e : (S.sum (rusAuthSig.sum hostSig)).Op}
  {a : (S.sum (rusAuthSig.sum hostSig)).Answer e}

theorem issued_later (ids : IssuesOnce rusAuth issued)
    (did : beside J (beside rusAuth hostEffect) s e a s') {id : Str} (was : issued s.2.1 id) :
    issued s'.2.1 id := by
  match e with
  | .inl e => rw [did.2]; exact was
  | .inr (.inl e) => exact ids.kept _ _ _ _ id did.1.1 was
  | .inr (.inr e) => rw [did.1.2]; exact was

/-- An answer on record was there before the last step, or the last step gave it
    and the id was new. -/
theorem answered_cases (ids : IssuesOnce rusAuth issued)
    (did : beside J (beside rusAuth hostEffect) s e a s') {j : ι} {id : Str}
    {request : RusAuthCallToConfirmRequest}
    (answered : Answered (tr ++ [(i, ⟨e, a⟩)]) j id request) :
    Answered tr j id request ∨
      (i = j ∧ e = .inr (.inl (.callToConfirm request)) ∧ ¬ issued s.2.1 id ∧
        issued s'.2.1 id) := by
  obtain ⟨response, names, member⟩ := answered
  rw [List.mem_append, List.mem_singleton] at member
  rcases member with old | new
  · exact Or.inl ⟨response, names, old⟩
  · cases new
    exact Or.inr ⟨rfl, rfl, ids.fresh _ _ _ _ id did.1.1 names⟩

theorem id_history_step (ids : IssuesOnce rusAuth issued) (history : IdHistory issued s.2.1 tr)
    (did : beside J (beside rusAuth hostEffect) s e a s') :
    IdHistory issued s'.2.1 (tr ++ [(i, ⟨e, a⟩)]) where
  known j id request answered := by
    rcases answered_cases ids did answered with old | ⟨_, _, _, now⟩
    · exact issued_later ids did (history.known j id request old)
    · exact now
  once j k id request request' left right := by
    rcases answered_cases ids did left with old | ⟨rfl, is, unissued, _⟩
    · rcases answered_cases ids did right with old' | ⟨_, _, unissued, _⟩
      · exact history.once j k id request request' old old'
      · exact absurd (history.known j id request old) unissued
    · rcases answered_cases ids did right with old' | ⟨rfl, is', _, _⟩
      · exact absurd (history.known k id request' old') unissued
      · rw [is] at is'
        cases is'
        exact ⟨rfl, rfl⟩

/-- In every run, whatever the store is and whatever the tasks are, an id
    answers one request only. -/
theorem id_history [DecidableEq ι] (ids : IssuesOnce rusAuth issued)
    {p q : Pool (S.sum (rusAuthSig.sum hostSig)) X A (τ × ς × Circuits) ι}
    (run : Exec (fun _ => beside J (beside rusAuth hostEffect)) p tr q) :
    IdHistory issued q.shared.2.1 tr := by
  induction run with
  | nil => exact ⟨by rintro i id request ⟨_, _, ⟨⟩⟩, by rintro i j id request request' ⟨_, _, ⟨⟩⟩⟩
  | snoc before last ih =>
    cases last with
    | act ready did => exact id_history_step ids ih did

/-- The step is an answer of RusAuth that names the transaction. -/
def AnswersWith (l : Label (S.sum (rusAuthSig.sum hostSig)) ι) (id : Str) : Prop :=
  ∃ request, ∃ response : RusAuthCallToConfirmResponse, response.transactionId = some id ∧
    l.2 = ⟨.inr (.inl (.callToConfirm request)), Except.ok response⟩

theorem no_second_answer [DecidableEq ι] (ids : IssuesOnce rusAuth issued)
    {p q : Pool (S.sum (rusAuthSig.sum hostSig)) X A (τ × ς × Circuits) ι} {id : Str}
    {l l' : Label (S.sum (rusAuthSig.sum hostSig)) ι}
    (run : Exec (fun _ => beside J (beside rusAuth hostEffect)) p tr q) (first : AnswersWith l id)
    (second : AnswersWith l' id) : ¬ Before tr l l' := by
  rintro ⟨xs, ys, zs, rfl⟩
  obtain ⟨m, m', before, step, _⟩ := exec_at run
  obtain ⟨i, o⟩ := l
  obtain ⟨j, o'⟩ := l'
  obtain ⟨request, response, names, rfl⟩ := first
  obtain ⟨request', response', names', rfl⟩ := second
  have known := (id_history ids before).known i id request ⟨response, names, by simp⟩
  cases step with
  | act ready did => exact (ids.fresh _ _ _ _ id did.1.1 names').1 known

theorem answered_once [DecidableEq ι] (ids : IssuesOnce rusAuth issued)
    {p q : Pool (S.sum (rusAuthSig.sum hostSig)) X A (τ × ς × Circuits) ι} {id : Str}
    {l l' : Label (S.sum (rusAuthSig.sum hostSig)) ι}
    (run : Exec (fun _ => beside J (beside rusAuth hostEffect)) p tr q) (left : l ∈ tr)
    (right : l' ∈ tr) (names : AnswersWith l id) (names' : AnswersWith l' id) : l = l' := by
  by_contra different
  rcases before_or_after left right different with before | before
  · exact no_second_answer ids run names names' before
  · exact no_second_answer ids run names' names before

end Ids

def StartedBy (tr : AppTrace ι) (i : ι) (id : Str) (request : RusAuthCallToConfirmRequest) : Prop :=
  ∃ response outcome, response.transactionId = some id ∧
    (i, ⟨.inl (.start response request), outcome⟩) ∈ tr

structure StartHistory (issued : ς → Str → Prop) (s : App ς) (tr : AppTrace ι) : Prop where
  ids : IdHistory issued s.2.1 tr
  answered : ∀ i id request, StartedBy tr i id request → Answered tr i id request
  origin : ∀ id flow, s.1.lookup id = some flow → ∃ i request, StartedBy tr i id request

section Steps
variable {site : Site} {tasks : ι → AppTask} {issued : ς → Str → Prop} {s s' : App ς}
  {tr : AppTrace ι} {i : ι}

theorem start_finds_nothing [DecidableEq ι] (history : StartHistory issued s tr)
    {response : RusAuthCallToConfirmResponse} {request : RusAuthCallToConfirmRequest} {id : Str}
    (justified : Justified site (tasks i) (own i tr) (.inl (.start response request)))
    (names : response.transactionId = some id) : s.1.lookup id = none := by
  obtain ⟨noCall, _, replied⟩ := justified
  cases stored : s.1.lookup id with
  | none => rfl
  | some flow =>
    obtain ⟨j, request', started⟩ := history.origin id flow stored
    have answered : Answered tr i id request := ⟨response, names, mem_own.mp replied⟩
    obtain ⟨rfl, _⟩ := history.ids.once i j id _ _ answered (history.answered j id request' started)
    obtain ⟨response', outcome, _, member⟩ := started
    exact absurd (mem_own.mpr member) (noCall _ _)

theorem started_by_later {l : Label AppSig ι} {id : Str} {request : RusAuthCallToConfirmRequest}
    (started : StartedBy tr i id request) : StartedBy (tr ++ [l]) i id request := by
  obtain ⟨response, outcome, names, member⟩ := started
  exact ⟨response, outcome, names, List.mem_append_left _ member⟩

theorem started_answered [DecidableEq ι] (history : StartHistory issued s tr) {e : AppSig.Op}
    {a : AppSig.Answer e} (justified : Justified site (tasks i) (own i tr) e) {j : ι} {id : Str}
    {request : RusAuthCallToConfirmRequest}
    (started : StartedBy (tr ++ [(i, ⟨e, a⟩)]) j id request) :
    Answered (tr ++ [(i, ⟨e, a⟩)]) j id request := by
  have later : tr <+: tr ++ [(i, ⟨e, a⟩)] := List.prefix_append _ _
  obtain ⟨response, outcome, names, member⟩ := started
  rw [List.mem_append, List.mem_singleton] at member
  rcases member with old | new
  · exact answered_later later (history.answered j id request ⟨response, outcome, names, old⟩)
  · cases new
    exact answered_later later ⟨response, names, mem_own.mp justified.2.2⟩

theorem origin_of_write (history : StartHistory issued s tr) {call : StoreCall} {id : Str}
    {flow : ExampleConfirmationFlow} (writes : Writes s.1 call id flow)
    (outcome : callSig.Answer call) :
    ∃ j request, StartedBy (tr ++ [(i, ⟨.inl call, outcome⟩)]) j id request := by
  have replaced : ∀ {old}, s.1.lookup id = some old →
      ∃ j request, StartedBy (tr ++ [(i, ⟨.inl call, outcome⟩)]) j id request := by
    intro old known
    obtain ⟨j, request, started⟩ := history.origin id old known
    exact ⟨j, request, started_by_later started⟩
  cases writes with
  | start names request created => exact ⟨i, request, _, outcome, names, by simp⟩
  | callback names known completed received => exact replaced known
  | waiting known checked => exact replaced known
  | decided decides known completed checked => exact replaced known

theorem history_step [DecidableEq ι] {rusAuth : Semantics rusAuthSig ς}
    (ids : IssuesOnce rusAuth issued) (history : StartHistory issued s tr) {e : AppSig.Op}
    {a : AppSig.Answer e} (justified : Justified site (tasks i) (own i tr) e)
    (did : appEffect rusAuth s e a s') : StartHistory issued s' (tr ++ [(i, ⟨e, a⟩)]) where
  ids := id_history_step ids history.ids did
  answered j id request started := started_answered history justified started
  origin id flow stored := by
    have old : ∀ {flow'}, s.1.lookup id = some flow' →
        ∃ j request, StartedBy (tr ++ [(i, ⟨e, a⟩)]) j id request := by
      intro flow' known
      obtain ⟨j, request, started⟩ := history.origin id flow' known
      exact ⟨j, request, started_by_later started⟩
    cases e with
    | inr e =>
      rw [did.2] at stored
      exact old stored
    | inl call =>
      rcases call_cases did.1 with same | ⟨id', flow', result, writes, wrote, _⟩
      · rw [same] at stored
        exact old stored
      · rw [wrote] at stored
        rcases lookup_insert_cases stored with ⟨rfl, rfl⟩ | ⟨_, before⟩
        · exact origin_of_write history writes a
        · exact old before

end Steps

theorem start_history [DecidableEq ι] {site : Site} {tasks : ι → AppTask}
    {rusAuth : Semantics rusAuthSig ς} {issued : ς → Str → Prop} (ids : IssuesOnce rusAuth issued)
    {service : ς} {circuits : Circuits} {tr : AppTrace ι} {q : AppPool ς ι}
    (run : Exec (fun _ => appEffect rusAuth) (appPool site tasks (∅, service, circuits)) tr q) :
    StartHistory issued q.shared tr := by
  refine exec_invariant (fun i => task_obeys site (tasks i)) ?_ ?_ run
  · refine ⟨⟨?_, ?_⟩, ?_, ?_⟩
    · rintro i id request ⟨_, _, ⟨⟩⟩
    · rintro i j id request request' ⟨_, _, ⟨⟩⟩
    · rintro i id request ⟨response, outcome, names, ⟨⟩⟩
    · intro id flow stored
      simp [appPool, AList.lookup_empty] at stored
  · intro s tr i e a s' history justified did
    exact history_step ids history justified did

end RusAuthExample
