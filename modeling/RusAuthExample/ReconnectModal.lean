import Mathlib.Data.Fintype.Option
import RusAuthExample.EventLoops

/-!
The script of the reconnect dialog. The framework reports how its own attempts go;
when they have failed the script tries again at a click, or when the document
becomes visible as long as its listener is registered. Blazor and the document are
outside code: their promises settle at any time and in any way.
-/
namespace RusAuthExample
open OperationPrograms InterleavedRuns EventLoops

/-- `event.detail.state` -/
inductive ReconnectState where
  | shows
  | hides
  | failed
  | rejected
  | other
  deriving DecidableEq, Repr

/-- What the script does to the page and asks of Blazor. A call that returns a promise
    may throw at once; to await the promise is an operation of its own. -/
inductive BrowserOp where
  | addEventListener
  | removeEventListener
  | showModal
  | close
  | reload
  | replaceClass
  | visibilityState
  | reconnect
  | reconnected
  | resumeCircuit
  | circuitResumed
  deriving DecidableEq, Repr

abbrev browserSig : Signature :=
  ⟨BrowserOp, fun
    | .visibilityState => Bool
    | .reconnect => Except Unit Unit
    | .reconnected => Except Unit Bool
    | .resumeCircuit => Except Unit Unit
    | .circuitResumed => Except Unit Bool
    | _ => Unit⟩

abbrev BrowserM := Prog browserSig Unit

def inBrowser (e : BrowserOp) : BrowserM (browserSig.Answer e) := .op e .ret

/-- `await Blazor.reconnect()` -/
def reconnect : BrowserM Bool :=
  .op .reconnect fun begun => (Prog.ofExcept begun).bind fun _ => .op .reconnected Prog.ofExcept

/-- `await Blazor.resumeCircuit()` -/
def resumeCircuit : BrowserM Bool :=
  .op .resumeCircuit fun begun =>
    (Prog.ofExcept begun).bind fun _ => .op .circuitResumed Prog.ofExcept

def handleReconnectStateChanged : ReconnectState → BrowserM Unit
  | .shows => inBrowser .showModal
  | .hides => inBrowser .close
  | .failed => inBrowser .addEventListener
  | .rejected => inBrowser .reload
  | .other => .ret ()

def retry : BrowserM Unit := do
  let _ : Unit ← inBrowser .removeEventListener
  tryCatch
    (do
      let successful ← reconnect
      if !successful then
        let resumeSuccessful ← resumeCircuit
        if !resumeSuccessful then inBrowser .reload else inBrowser .close)
    fun _ => inBrowser .addEventListener

def resume : BrowserM Unit :=
  tryCatch
    (do
      let successful ← resumeCircuit
      if !successful then inBrowser .reload)
    fun _ => inBrowser .replaceClass

def retryWhenDocumentBecomesVisible : BrowserM Unit := do
  let visible : Bool ← inBrowser .visibilityState
  if visible then retry

inductive BrowserTask where
  | stateChanged (state : ReconnectState)
  | retryClick
  | resumeClick
  | visibilityChange
  deriving DecidableEq, Repr

def BrowserTask.program : BrowserTask → BrowserM Unit
  | .stateChanged state => handleReconnectStateChanged state
  | .retryClick => retry
  | .resumeClick => resume
  | .visibilityChange => retryWhenDocumentBecomesVisible

/-- The listener is there or not: to add it twice is to add it once. -/
structure Browser where
  listening : Bool
  modal : Bool
  deriving DecidableEq, Repr

def Browser.after (s : Browser) : BrowserOp → Browser
  | .addEventListener => { s with listening := true }
  | .removeEventListener => { s with listening := false }
  | .showModal => { s with modal := true }
  | .close => { s with modal := false }
  | _ => s

def browserEffect : Semantics browserSig Browser := fun s e _ s' => s' = s.after e

variable {ι : Type}

abbrev BrowserPool (ι : Type) := Pool browserSig Unit Unit Browser ι

abbrev BrowserTrace (ι : Type) := List (Label browserSig ι)

def browserPool (tasks : ι → BrowserTask) (s : Browser) : BrowserPool ι :=
  ⟨s, fun i => (tasks i).program⟩

def AwaitsPromise : browserSig.Op → Prop
  | .reconnected => True
  | .circuitResumed => True
  | _ => False

instance : DecidablePred AwaitsPromise := fun e => by
  unfold AwaitsPromise
  split <;> infer_instance

/-- The task tries to reconnect, by itself or at a click. -/
def BrowserTask.retries : BrowserTask → Bool
  | .retryClick => true
  | .visibilityChange => true
  | _ => false

def threw : Performed browserSig → Bool
  | ⟨.reconnect, .error _⟩ => true
  | ⟨.reconnected, .error _⟩ => true
  | ⟨.resumeCircuit, .error _⟩ => true
  | ⟨.circuitResumed, .error _⟩ => true
  | _ => false

def reachedServer : Performed browserSig → Bool
  | ⟨.reconnected, .ok _⟩ => true
  | ⟨.circuitResumed, .ok _⟩ => true
  | _ => false

def outcomes {A : Type} : Option A ≃ Except Unit A where
  toFun
    | none => .error ()
    | some a => .ok a
  invFun
    | .error _ => none
    | .ok a => some a
  left_inv a := by cases a <;> rfl
  right_inv a := by cases a <;> rfl

instance outcomesFintype {A : Type} [Fintype A] : Fintype (Except Unit A) :=
  Fintype.ofEquiv (Option A) outcomes

instance answersFintype : (e : browserSig.Op) → Fintype (browserSig.Answer e)
  | .visibilityState => inferInstanceAs (Fintype Bool)
  | .reconnect => inferInstanceAs (Fintype (Except Unit Unit))
  | .reconnected => inferInstanceAs (Fintype (Except Unit Bool))
  | .resumeCircuit => inferInstanceAs (Fintype (Except Unit Unit))
  | .circuitResumed => inferInstanceAs (Fintype (Except Unit Bool))
  | .addEventListener => inferInstanceAs (Fintype Unit)
  | .removeEventListener => inferInstanceAs (Fintype Unit)
  | .showModal => inferInstanceAs (Fintype Unit)
  | .close => inferInstanceAs (Fintype Unit)
  | .reload => inferInstanceAs (Fintype Unit)
  | .replaceClass => inferInstanceAs (Fintype Unit)

/-- How far a task has come with an attempt to reconnect. -/
inductive Attempt where
  | unbegun
  | trying
  | failed
  | settled
  deriving DecidableEq, Repr

/-- The attempt is over when the circuit is back, or when the server has said of the
    circuit that it is gone; one that did not reach the server is to be repeated. -/
def Attempt.next (stage : Attempt) (o : Performed browserSig) : Attempt :=
  match stage, o with
  | _, ⟨.removeEventListener, _⟩ => .trying
  | .trying, ⟨.reconnected, .ok true⟩ => .settled
  | .trying, ⟨.circuitResumed, .ok _⟩ => .settled
  | .trying, o => if threw o then .failed else .trying
  | .failed, ⟨.addEventListener, _⟩ => .settled
  | stage, _ => stage

def attempt (past : List (Performed browserSig)) : Attempt := past.foldl .next .unbegun

def Attempt.underWay (stage : Attempt) : Bool := stage = .trying || stage = .failed

def asksServer : BrowserOp → Bool
  | .reconnect => true
  | .reconnected => true
  | .resumeCircuit => true
  | .circuitResumed => true
  | _ => false

/-- A retry asks the server while it is trying, and no task ends in between. -/
def Tries (task : BrowserTask) (past : List (Performed browserSig)) (e : browserSig.Op) : Prop :=
  task.retries = true → asksServer e = true → attempt past = .trying

instance (task : BrowserTask) (past : List (Performed browserSig)) (e : browserSig.Op) :
    Decidable (Tries task past e) :=
  inferInstanceAs (Decidable (task.retries = true → asksServer e = true → attempt past = .trying))

theorem task_tries (task : BrowserTask) : task.program.Follows (Tries task)
    (fun _ done => (attempt done).underWay = false) [] := by
  cases task with
  | stateChanged state => cases state <;> decide
  | retryClick => decide
  | resumeClick => decide
  | visibilityChange => decide

theorem attempt_snoc (past : List (Performed browserSig)) (o : Performed browserSig) :
    attempt (past ++ [o]) = (attempt past).next o := by
  simp [attempt]

/-- The framework has given up, or a retry has thrown. A click on resume is no attempt to
    reconnect: when it throws, the dialog changes its class and waits for the next click. -/
def failure (task : BrowserTask) (o : Performed browserSig) : Bool :=
  match task with
  | .stateChanged .failed => o.1 == BrowserOp.addEventListener
  | task => task.retries && threw o

/-- Since the last failure nothing has reached the server. -/
def unreached (tasks : ι → BrowserTask) (tr : BrowserTrace ι) : Bool :=
  tr.foldl (fun still l => failure (tasks l.1) l.2 || (still && !reachedServer l.2)) false

section Steps

theorem next_removed (stage : Attempt) (a : browserSig.Answer .removeEventListener) :
    stage.next ⟨.removeEventListener, a⟩ = .trying := by
  cases stage <;> rfl

theorem next_threw (e : browserSig.Op) :
    ∀ a, threw ⟨e, a⟩ = true → asksServer e = true ∧ Attempt.trying.next ⟨e, a⟩ = .failed := by
  cases e <;> decide

/-- An attempt stays under way until the server is reached or the listener is back. -/
theorem next_under_way (stage : Attempt) (e : browserSig.Op) :
    ∀ a, stage.underWay = true → reachedServer ⟨e, a⟩ = false →
      (stage.next ⟨e, a⟩).underWay = true ∨ e = .addEventListener := by
  cases stage <;> cases e <;> decide

theorem listening_kept (s : Browser) {e : browserSig.Op} (adds : e ≠ .addEventListener)
    (removes : e ≠ .removeEventListener) : (s.after e).listening = s.listening := by
  cases e with
  | addEventListener => exact absurd rfl adds
  | removeEventListener => exact absurd rfl removes
  | _ => rfl

theorem failure_cases {task : BrowserTask} {o : Performed browserSig} (fails : failure task o = true) :
    o.1 = BrowserOp.addEventListener ∨ task.retries = true ∧ threw o = true := by
  cases task with
  | stateChanged state =>
    cases state with
    | failed => exact Or.inl (by simpa [failure] using fails)
    | _ => simp [failure, BrowserTask.retries] at fails
  | _ => exact Or.inr (by simpa [failure] using fails)

end Steps

section Runs
variable [DecidableEq ι] {tasks : ι → BrowserTask} {s : Browser} {tr : BrowserTrace ι}
  {q : BrowserPool ι}

theorem lost_server_watched (run : Exec (fun _ => browserEffect) (browserPool tasks s) tr q)
    (lost : unreached tasks tr = true) :
    q.shared.listening = true ∨ ∃ i, (attempt (own i tr)).underWay = true := by
  induction run with
  | nil => cases lost
  | @snoc m q tr l before last ih =>
    have tries := exec_obeys before last (Prog.obeys_of_follows (task_tries (tasks l.1)))
    cases last with
    | @act i e next a s' ready did =>
      obtain rfl : s' = m.shared.after e := did
      have mine : attempt (own i (tr ++ [(i, ⟨e, a⟩)])) = (attempt (own i tr)).next ⟨e, a⟩ := by
        rw [own_snoc_self, attempt_snoc]
      have added : e = .addEventListener → (m.shared.after e).listening = true := by
        rintro rfl
        rfl
      simp only [unreached, List.foldl_append, List.foldl_cons, List.foldl_nil, Bool.or_eq_true,
        Bool.and_eq_true, Bool.not_eq_true'] at lost
      rcases lost with fails | ⟨still, silent⟩
      · rcases failure_cases fails with adds | ⟨retries, threw⟩
        · exact Or.inl (added adds)
        · obtain ⟨asks, failed⟩ := next_threw e a threw
          refine Or.inr ⟨i, ?_⟩
          rw [mine, tries retries asks, failed]
          rfl
      · rcases ih still with listening | ⟨j, underWay⟩
        · by_cases adds : e = .addEventListener
          · exact Or.inl (added adds)
          · by_cases removes : e = .removeEventListener
            · subst removes
              exact Or.inr ⟨i, by rw [mine, next_removed]; rfl⟩
            · exact Or.inl ((listening_kept m.shared adds removes).trans listening)
        · by_cases same : j = i
          · subst same
            rcases next_under_way _ e a underWay silent with goesOn | adds
            · exact Or.inr ⟨j, by rw [mine]; exact goesOn⟩
            · exact Or.inl (added adds)
          · exact Or.inr ⟨j, by rw [own_snoc_other same]; exact underWay⟩

end Runs

section Counts

def tries (task : BrowserTask) (o : Performed browserSig) : Bool :=
  task.retries && o.1 == BrowserOp.removeEventListener

def clicked (task : BrowserTask) (o : Performed browserSig) : Bool :=
  task == .retryClick && o.1 == BrowserOp.removeEventListener

def automatic (task : BrowserTask) (o : Performed browserSig) : Bool :=
  task == .visibilityChange && o.1 == BrowserOp.removeEventListener

def registers (e : browserSig.Op) : Bool := e == BrowserOp.addEventListener

def calls (e : browserSig.Op) : Bool := e == BrowserOp.reconnect

theorem task_begins_calls (task : BrowserTask) :
    task.program.Obeys (Paid calls (tries task)) [] := by
  refine Prog.obeys_of_follows (Q := fun _ _ => True) ?_
  cases task with
  | stateChanged state => cases state <;> decide
  | retryClick => decide
  | resumeClick => decide
  | visibilityChange => decide

theorem task_fails_first {task : BrowserTask} (other : task ≠ .stateChanged .failed) :
    task.program.Obeys (Paid registers (failure task)) [] := by
  refine Prog.obeys_of_follows (Q := fun _ _ => True) ?_
  cases task with
  | stateChanged state =>
    cases state with
    | failed => exact absurd rfl other
    | _ => decide
  | retryClick => decide
  | resumeClick => decide
  | visibilityChange => decide

def LooksFirst (task : BrowserTask) (past : List (Performed browserSig)) (e : browserSig.Op) :
    Prop :=
  task = .visibilityChange → e = BrowserOp.removeEventListener →
    past.map Sigma.fst = [BrowserOp.visibilityState]

instance (task : BrowserTask) (past : List (Performed browserSig)) (e : browserSig.Op) :
    Decidable (LooksFirst task past e) :=
  inferInstanceAs (Decidable (task = .visibilityChange → e = BrowserOp.removeEventListener →
    past.map Sigma.fst = [BrowserOp.visibilityState]))

theorem task_looks_first (task : BrowserTask) : task.program.Obeys (LooksFirst task) [] := by
  refine Prog.obeys_of_follows (Q := fun _ _ => True) ?_
  cases task with
  | stateChanged state => cases state <;> decide
  | retryClick => decide
  | resumeClick => decide
  | visibilityChange => decide

variable [DecidableEq ι] {tasks : ι → BrowserTask} {s : Browser} {tr : BrowserTrace ι}
  {m q : BrowserPool ι} {l : Label browserSig ι}

/-- The document calls the listener while it is registered. -/
def Dispatched (tasks : ι → BrowserTask) (tr : BrowserTrace ι) (m : BrowserPool ι)
    (l : Label browserSig ι) : Prop :=
  tasks l.1 = .visibilityChange → own l.1 tr = [] → m.shared.listening = true

instance (tasks : ι → BrowserTask) (tr : BrowserTrace ι) (m : BrowserPool ι)
    (l : Label browserSig ι) : Decidable (Dispatched tasks tr m l) :=
  inferInstanceAs (Decidable (tasks l.1 = .visibilityChange → own l.1 tr = [] →
    m.shared.listening = true))

/-- A registration is used up by the attempt it leads to; a task that is about to begin
    one has found the listener registered, and finds it so still. -/
structure Registered (tasks : ι → BrowserTask) (tr : BrowserTrace ι) (m : BrowserPool ι) : Prop where
  used : (tr.countP fun l => automatic (tasks l.1) l.2) + (if m.shared.listening then 1 else 0) ≤
    tr.countP fun l => registers l.2.1
  ready : ∀ i next, tasks i = .visibilityChange → own i tr ≠ [] →
    m.task i = .op BrowserOp.removeEventListener next → m.shared.listening = true

/-- What a step registers it adds, and an attempt takes away the registration it has found. -/
theorem used_step (kept : Registered tasks tr m) {i : ι} {e : browserSig.Op}
    {next : browserSig.Answer e → Prog browserSig Unit Unit} (a : browserSig.Answer e)
    (ready : m.task i = .op e next) (looks : LooksFirst (tasks i) (own i tr) e) :
    ((tr ++ [((i, ⟨e, a⟩) : Label browserSig ι)]).countP fun l => automatic (tasks l.1) l.2) +
        (if (m.shared.after e).listening then 1 else 0) ≤
      (tr ++ [((i, ⟨e, a⟩) : Label browserSig ι)]).countP fun l => registers l.2.1 := by
  have used := kept.used
  rw [List.countP_append, List.countP_append, List.countP_singleton, List.countP_singleton]
  by_cases adds : e = BrowserOp.addEventListener
  · subst adds
    have fresh : automatic (tasks i) ⟨BrowserOp.addEventListener, a⟩ = false := by
      simp [automatic]
    have registered : registers BrowserOp.addEventListener = true := rfl
    have listening : (m.shared.after .addEventListener).listening = true := rfl
    simp only [fresh, registered, listening, if_true, Bool.false_eq_true, if_false]
    omega
  · have unregistered : registers e = false := by simpa [registers] using adds
    by_cases removes : e = BrowserOp.removeEventListener
    · subst removes
      have silent : (m.shared.after .removeEventListener).listening = false := rfl
      simp only [unregistered, silent, Bool.false_eq_true, if_false]
      by_cases auto : tasks i = .visibilityChange
      · -- the attempt uses up the registration that it has found
        have begun : own i tr ≠ [] := by
          intro none
          have first := looks auto rfl
          rw [none] at first
          cases first
        rw [kept.ready i next auto begun ready, if_pos rfl] at used
        split <;> omega
      · have byHand : automatic (tasks i) ⟨BrowserOp.removeEventListener, a⟩ = false := by
          simp [automatic, auto]
        simp only [byHand, Bool.false_eq_true, if_false]
        omega
    · have fresh : automatic (tasks i) ⟨e, a⟩ = false := by simp [automatic, removes]
      simp only [fresh, unregistered, listening_kept m.shared adds removes,
        Bool.false_eq_true, if_false]
      omega

theorem registered_step (run : Exec (fun _ => browserEffect) (browserPool tasks s) tr m)
    (kept : Registered tasks tr m) (step : Step (fun _ => browserEffect) m l q)
    (turn : InTurn AwaitsPromise tr m l) (dispatched : Dispatched tasks tr m l) :
    Registered tasks (tr ++ [l]) q := by
  have looks := exec_obeys run step (task_looks_first (tasks l.1))
  have looked : ∀ j, (q.task j).Obeys (LooksFirst (tasks j)) (own j (tr ++ [l])) := fun j =>
    Prog.obeys_path (task_looks_first (tasks j)) (exec_path (run.snoc step) j)
  cases step with
  | @act i e next a s' ready did =>
    obtain rfl : s' = m.shared.after e := did
    constructor
    case used => exact used_step kept a ready looks
    case ready =>
      intro j next' is begun ready'
      by_cases mine : j = i
      · subst mine
        have first := looked j
        rw [ready', own_snoc_self] at first
        have path := first.1 is rfl
        rw [List.map_append, List.map_singleton] at path
        obtain ⟨empty, vis⟩ := List.append_inj' (path.trans (List.nil_append _).symm) rfl
        obtain rfl : e = BrowserOp.visibilityState := List.singleton_inj.mp vis
        exact dispatched is (List.map_eq_nil_iff.mp empty)
      · rw [own_snoc_other mine] at begun
        have waiting : m.task j = .op BrowserOp.removeEventListener next' := by
          simpa [Function.update_of_ne mine] using ready'
        exact absurd (running_steps turn begun waiting id) mine

theorem registered_run {modal : Bool} (run : Guided (fun _ => browserEffect)
      (fun tr m l => InTurn AwaitsPromise tr m l ∧ Dispatched tasks tr m l)
      (browserPool tasks ⟨false, modal⟩) tr q) : Registered tasks tr q := by
  induction run with
  | nil =>
    constructor
    case used => simp [browserPool]
    case ready => exact fun i _ _ begun => absurd rfl begun
  | snoc before last meets ih =>
    exact registered_step (guided_exec before) ih last meets.1 meets.2

theorem calls_tried (run : Exec (fun _ => browserEffect) (browserPool tasks s) tr q) :
    (tr.countP fun l => calls l.2.1) ≤ tr.countP fun l => tries (tasks l.1) l.2 :=
  count_le_of_own (Q := fun i o => tries (tasks i) o) (fun _ o => calls o.1) fun i =>
    own_le_of_paid (task_begins_calls (tasks i)) run

theorem registrations_failed (run : Exec (fun _ => browserEffect) (browserPool tasks s) tr q) :
    (tr.countP fun l => registers l.2.1) ≤ tr.countP fun l => failure (tasks l.1) l.2 := by
  refine count_le_of_own (Q := fun i o => failure (tasks i) o) (fun _ o => registers o.1) fun i => ?_
  by_cases told : tasks i = .stateChanged .failed
  · refine List.countP_mono_left fun o _ registered => ?_
    rw [told]
    exact registered
  · exact own_le_of_paid (task_fails_first told) run

/-- No storm of attempts. However the tasks of the event loop follow each other, every
    call of Blazor.reconnect is the user's click or answers a failure, and no failure is
    answered by more than one attempt that nobody clicked for. -/
theorem attempts_answer_failures {modal : Bool} (run : Guided (fun _ => browserEffect)
      (fun tr m l => InTurn AwaitsPromise tr m l ∧ Dispatched tasks tr m l)
      (browserPool tasks ⟨false, modal⟩) tr q) :
    (tr.countP fun l => automatic (tasks l.1) l.2) ≤
        (tr.countP fun l => failure (tasks l.1) l.2) ∧
      (tr.countP fun l => calls l.2.1) ≤
        (tr.countP fun l => clicked (tasks l.1) l.2) +
          tr.countP fun l => failure (tasks l.1) l.2 := by
  have exec := guided_exec run
  have used := (registered_run run).used
  have failed := registrations_failed exec
  have tried := calls_tried exec
  have split : (tr.countP fun l => tries (tasks l.1) l.2) ≤
      (tr.countP fun l => clicked (tasks l.1) l.2) +
        tr.countP fun l => automatic (tasks l.1) l.2 := by
    refine countP_le_add fun l _ begins => ?_
    simp only [tries, clicked, automatic, Bool.and_eq_true, beq_iff_eq] at begins ⊢
    obtain ⟨retries, removes⟩ := begins
    cases task : tasks l.1 with
    | stateChanged state => rw [task] at retries; cases retries
    | retryClick => exact Or.inl ⟨rfl, removes⟩
    | resumeClick => rw [task] at retries; cases retries
    | visibilityChange => exact Or.inr ⟨rfl, removes⟩
  omega

end Counts

/- The server stays away: the framework gives up, and the document becomes visible twice. -/
namespace ServerAway

inductive Party where
  | gaveUp
  | visible
  | visibleAgain
  deriving DecidableEq

instance : Fintype Party := .ofList [.gaveUp, .visible, .visibleAgain] fun party => by
  cases party <;> decide

def tasks : Party → BrowserTask
  | .gaveUp => .stateChanged .failed
  | .visible => .visibilityChange
  | .visibleAgain => .visibilityChange

def answers : (e : browserSig.Op) → Browser → browserSig.Answer e × Browser
  | .visibilityState, s => (true, s)
  | .reconnect, s => (.ok (), s)
  | .reconnected, s => (.error (), s)
  | .resumeCircuit, s => (.error (), s)
  | .circuitResumed, s => (.error (), s)
  | .addEventListener, s => ((), s.after .addEventListener)
  | .removeEventListener, s => ((), s.after .removeEventListener)
  | .showModal, s => ((), s.after .showModal)
  | .close, s => ((), s.after .close)
  | .reload, s => ((), s)
  | .replaceClass, s => ((), s)

def schedule : List Party :=
  .gaveUp :: List.replicate 5 .visible ++ List.replicate 5 .visibleAgain

def start : BrowserPool Party := browserPool tasks ⟨false, true⟩

def after : BrowserTrace Party × BrowserPool Party := replay answers start schedule

theorem answered (e : browserSig.Op) (s : Browser) :
    browserEffect s e (answers e s).1 (answers e s).2 := by
  cases e <;> rfl

theorem run : Guided (fun _ => browserEffect)
    (fun tr m l => InTurn AwaitsPromise tr m l ∧ Dispatched tasks tr m l) start after.1 after.2 :=
  replay_guided (fun _ => answered) .nil schedule (by decide)

end ServerAway

theorem away_server_attempts :
    (ServerAway.after.1.countP fun l => calls l.2.1) = 2 ∧
      (ServerAway.after.1.countP fun l => automatic (ServerAway.tasks l.1) l.2) ≤
        ServerAway.after.1.countP fun l => failure (ServerAway.tasks l.1) l.2 :=
  ⟨by decide, (attempts_answer_failures ServerAway.run).1⟩

end RusAuthExample
