import Mathlib.Data.Fintype.OfMap
import RusAuthExample.FormValidation
import RusAuthExample.RenderedPages

/-!
Only what the form has accepted is sent. The validation and the reading of the form
belong to one piece of the circuit's code, so no edit comes between them; the
request is built from what was read, and the record from the request.
-/
namespace RusAuthExample
open Utf16Text OperationPrograms InterleavedRuns KeyedMemory

variable {ς ι : Type} {S : Signature}

def AppTask.submits : AppTask → Option Page
  | .submit page => some page
  | _ => none

def KeepsForm : (S.sum (rusAuthSig.sum hostSig)).Op → Prop
  | .inr (.inr (.model _)) => False
  | .inr (.inr (.edit _ _)) => False
  | _ => True

def ReadForm (page : Page) (past : List (Performed FineSig)) : Prop :=
  ∃ model, (⟨.inr (.inr (.model page)), model⟩ : Performed FineSig) ∈ past

/-- A submit goes on without waiting until it has read its form, and reads it once. -/
def ReadsOnce (page : Page) (past : List (Performed FineSig)) (e : FineSig.Op) : Prop :=
  (ReadForm page past ∧ KeepsForm e) ∨
    (¬ ReadForm page past ∧ (KeepsForm e ∨ e = .inr (.inr (.model page))) ∧ ¬ Waits e)

section Program

theorem keeps_form_below {T : Signature} {e : (rusAuthSig.sum hostSig).Op}
    (keeps : KeepsForm (.inr e : (S.sum (rusAuthSig.sum hostSig)).Op)) :
    KeepsForm (.inr e : (T.sum (rusAuthSig.sum hostSig)).Op) := by
  rcases e with e | e
  · trivial
  · cases e <;> trivial

theorem start_keeps_form (site : Site) (session : SessionId) (phoneNumber callbackUrl : Str)
    (expirationMinute : Int) :
    (startConfirmationAsync site session phoneNumber callbackUrl expirationMinute).Uses
      KeepsForm := by
  refine ⟨trivial, fun (reply : Except Exn RusAuthCallToConfirmResponse) => ⟨trivial, fun _ => ?_⟩⟩
  cases reply with
  | error x => trivial
  | ok response =>
    refine ⟨trivial, fun (outcome : Except Exn ExampleConfirmationFlow) => ?_⟩
    cases outcome with
    | error x => trivial
    | ok flow =>
      exact ⟨trivial, fun _ => ⟨trivial, fun _ => ⟨trivial, fun _ => ⟨trivial, fun _ => trivial⟩⟩⟩⟩

theorem attempted_keeps_form (page : Page) {action : AppM Unit} (acts : action.Uses KeepsForm) :
    ((attempted page action).ensure (setIsBusy page false)).Uses KeepsForm := by
  have shown : (shownTransactionId page.session).Uses KeepsForm :=
    shown_uses page.session trivial fun _ => trivial
  refine Prog.uses_ensure ?_ ⟨trivial, fun _ => trivial⟩
  exact Prog.uses_recover (Prog.uses_bind acts fun _ => Prog.uses_bind shown fun _ => trivial)
    fun ex => ⟨trivial, fun _ => ⟨trivial, fun _ => ⟨trivial, fun _ => trivial⟩⟩⟩

theorem read_form_later {page : Page} {past : List (Performed FineSig)}
    (read : ReadForm page past) (o : Performed FineSig) : ReadForm page (past ++ [o]) := by
  obtain ⟨model, member⟩ := read
  exact ⟨model, List.mem_append_left _ member⟩

theorem read_form_snoc {page : Page} {past : List (Performed FineSig)} {e : FineSig.Op}
    {a : FineSig.Answer e} (other : e ≠ .inr (.inr (.model page)))
    (unread : ¬ ReadForm page past) : ¬ ReadForm page (past ++ [⟨e, a⟩]) := by
  rintro ⟨model, member⟩
  rw [List.mem_append, List.mem_singleton] at member
  rcases member with before | now
  · exact unread ⟨model, before⟩
  · cases now
    exact other rfl

theorem submit_reads_once (site : Site) (page : Page) :
    (((FacadeTask.app (.submit page)).program site).interp withAccesses).Follows (ReadsOnce page)
      (fun _ done => ReadForm page done) [] := by
  have calm : ∀ {past e} {next : FineSig.Answer e → Prog FineSig Exn (Option ExampleConfirmationFlow)},
      ¬ ReadForm page past → KeepsForm e → ¬ Waits e →
      (∀ a, ¬ ReadForm page (past ++ [⟨e, a⟩]) → (next a).Follows (ReadsOnce page)
        (fun _ done => ReadForm page done) (past ++ [⟨e, a⟩])) →
      (Prog.op e next).Follows (ReadsOnce page) (fun _ done => ReadForm page done) past := by
    intro past e next unread keeps moves rest
    refine Prog.follows_op (Or.inr ⟨unread, Or.inl keeps, moves⟩) fun a => rest a ?_
    refine read_form_snoc ?_ unread
    rintro rfl
    exact keeps
  refine calm (fun ⟨_, member⟩ => absurd member List.not_mem_nil) trivial id fun _ unread => ?_
  refine calm unread trivial id fun _ unread => calm unread trivial id fun _ unread => ?_
  refine calm unread trivial id fun _ unread => ?_
  refine Prog.follows_op (Or.inr ⟨unread, Or.inr rfl, id⟩) fun (model : AuthorizeFormModel) => ?_
  let rest : AppM Unit := (attempted page ((startConfirmationAsync site page.session model.phoneNumber
    (buildCallbackUrl site (site.baseUri page.session)) model.expirationMinute).bind
      fun _ => .ret ())).ensure (setIsBusy page false)
  have uses : ((rest.bind fun _ => .ret (none : Option ActionResult)).bind
      fun _ => .ret (none : Option ExampleConfirmationFlow)).Uses KeepsForm := by
    refine Prog.uses_bind (Prog.uses_bind ?_ fun _ => trivial) fun _ => trivial
    exact attempted_keeps_form page (Prog.uses_bind (start_keeps_form ..) fun _ => trivial)
  have fine : (((rest.bind fun _ => .ret (none : Option ActionResult)).bind
      fun _ => .ret (none : Option ExampleConfirmationFlow)).interp withAccesses).Uses KeepsForm := by
    refine Prog.uses_interp uses fun e keeps => ?_
    cases e with
    | inl call => exact Prog.uses_on_left _ fun _ => trivial
    | inr e => exact ⟨keeps_form_below keeps, fun _ => trivial⟩
  exact Prog.follows_invariant fine ⟨model, by simp⟩ fun past e read keeps =>
    ⟨Or.inl ⟨read, keeps⟩, fun a => read_form_later read _⟩

end Program

section Runs
variable [DecidableEq ι] {rusAuth : Semantics rusAuthSig ς} {site : Site} {tasks : ι → AppTask}
  {service : ς} {circuits : Circuits} {s s' : App ς} {tr : OuterTrace StoreSig ι}
  {m q : FacadePool ς ι} {i : ι} {e : FineSig.Op} {a : FineSig.Answer e}

/-- The form starts SubmitAsync when its validation has nothing to report. -/
def StartsValid (tasks : ι → AppTask) (tr : OuterTrace StoreSig ι) (m : FacadePool ς ι)
    (l : Label FineSig ι) : Prop :=
  ∀ page ∈ (tasks l.1).submits, own l.1 tr = [] →
    (m.shared.2.2.pages page).model.validate = []

instance (tasks : ι → AppTask) (tr : OuterTrace StoreSig ι) (m : FacadePool ς ι)
    (l : Label FineSig ι) : Decidable (StartsValid tasks tr m l) :=
  inferInstanceAs (Decidable (∀ page ∈ (tasks l.1).submits, _))

/-- The tasks of the pages and the endpoint, with the store's calls as accesses. -/
abbrev formPool (site : Site) (tasks : ι → AppTask) (s : App ς) : FacadePool ς ι :=
  facadePool site (fun i => .app (tasks i)) s

/-- From the start of a submit to its reading the form stays as it was accepted. -/
structure FormsAccepted (tasks : ι → AppTask) (tr : OuterTrace StoreSig ι) (m : FacadePool ς ι) :
    Prop where
  unread : ∀ i page, tasks i = .submit page → own i tr ≠ [] → ¬ ReadForm page (own i tr) →
    (m.shared.2.2.pages page).model.validate = []
  read : ∀ i page model, tasks i = .submit page →
    (i, ⟨.inr (.inr (.model page)), model⟩) ∈ tr → model.validate = []

theorem submit_in_run {page : Page}
    (run : Exec (fun _ => fineEffect rusAuth) (formPool site tasks s) tr m)
    (submits : tasks i = .submit page) :
    (m.task i).Follows (ReadsOnce page) (fun _ done => ReadForm page done) (own i tr) := by
  have begins := submit_reads_once site page
  rw [← submits] at begins
  exact exec_follows run begins

/-- A submit that has begun and not read its form is in the middle of a piece of code. -/
theorem unread_not_at_rest {page : Page}
    (run : Exec (fun _ => fineEffect rusAuth) (formPool site tasks s) tr m)
    (submits : tasks i = .submit page) (begun : own i tr ≠ [])
    (unread : ¬ ReadForm page (own i tr)) : ¬ AtRest (own i tr) (m.task i) := by
  have follows := submit_in_run run submits
  cases rest : m.task i with
  | ret b => rw [rest] at follows; exact absurd follows unread
  | raise x => rw [rest] at follows; exact absurd follows unread
  | op e next =>
    rw [rest] at follows
    rcases follows.1 with ⟨read, _⟩ | ⟨_, _, moves⟩
    · exact absurd read unread
    · exact not_at_rest_op begun moves

theorem submit_step {page : Page}
    (run : Exec (fun _ => fineEffect rusAuth) (formPool site tasks s) tr m)
    (step : Step (fun _ => fineEffect rusAuth) m (i, ⟨e, a⟩) q)
    (submits : tasks i = .submit page) :
    KeepsForm e ∨ e = .inr (.inr (.model page)) ∧ ¬ ReadForm page (own i tr) := by
  have follows := submit_in_run run submits
  cases step with
  | act ready did =>
    rw [ready] at follows
    rcases follows.1 with ⟨_, keeps⟩ | ⟨unread, keeps | reads, _⟩
    · exact Or.inl keeps
    · exact Or.inl keeps
    · exact Or.inr ⟨reads, unread⟩

theorem no_edit_before_reading {page : Page} {model : AuthorizeFormModel} {j : ι}
    (run : Exec (fun _ => fineEffect rusAuth) (formPool site tasks s) tr m)
    (step : Step (fun _ => fineEffect rusAuth) m (i, ⟨e, a⟩) q)
    (turns : TakesTurns (fun i => (tasks i).circuit) tr m (i, ⟨e, a⟩))
    (submits : tasks j = .submit page) (begun : own j tr ≠ [])
    (unread : ¬ ReadForm page (own j tr)) : e ≠ .inr (.inr (.edit page model)) := by
  rintro rfl
  by_cases mine : j = i
  · subst mine
    rcases submit_step run step submits with keeps | ⟨reads, _⟩
    · exact keeps
    · cases reads
  · have home : (tasks i).circuit = some page.session :=
      exec_obeys run step (Prog.obeys_of_uses (task_stays_home site (.app (tasks i)))
        (fun _ _ stays => stays) [])
    have circuit : (tasks j).circuit = some page.session := by rw [submits]; rfl
    have rest := (turns.resolve_left id) j mine (circuit.trans home.symm) (by simp [circuit])
    exact unread_not_at_rest run submits begun unread rest

theorem forms_step (run : Exec (fun _ => fineEffect rusAuth) (formPool site tasks s) tr m)
    (forms : FormsAccepted tasks tr m) (step : Step (fun _ => fineEffect rusAuth) m (i, ⟨e, a⟩) q)
    (turns : TakesTurns (fun i => (tasks i).circuit) tr m (i, ⟨e, a⟩))
    (starts : StartsValid tasks tr m (i, ⟨e, a⟩)) :
    FormsAccepted tasks (tr ++ [(i, ⟨e, a⟩)]) q := by
  -- before a submit takes a step that does not follow a reading, its form is accepted
  have accepted : ∀ page, tasks i = .submit page → ¬ ReadForm page (own i tr) →
      (m.shared.2.2.pages page).model.validate = [] := by
    intro page submits unread
    by_cases begun : own i tr = []
    · exact starts page (by simp [submits, AppTask.submits]) begun
    · exact forms.unread i page submits begun unread
  constructor
  case unread =>
    intro j page submits begun unread
    have before : ¬ ReadForm page (own j tr) := fun read => unread (by
      rw [own_append]
      exact ⟨read.choose, List.mem_append_left _ read.choose_spec⟩)
    have kept : (∀ model, e ≠ .inr (.inr (.edit page model))) →
        (q.shared.2.2.pages page).model = (m.shared.2.2.pages page).model := by
      intro edits
      cases step with
      | act ready did => exact model_kept did edits
    by_cases mine : j = i
    · subst mine
      rw [kept]
      · exact accepted page submits before
      · rintro model rfl
        rcases submit_step run step submits with keeps | ⟨reads, _⟩
        · exact keeps
        · cases reads
    · rw [own_snoc_other mine] at begun
      rw [kept fun model => no_edit_before_reading run step turns submits begun before]
      exact forms.unread j page submits begun before
  case read =>
    intro j page model submits member
    rw [List.mem_append, List.mem_singleton] at member
    rcases member with old | now
    · exact forms.read j page model submits old
    · cases now
      rcases submit_step run step submits with keeps | ⟨_, unread⟩
      · exact keeps.elim
      · cases step with
        | act ready did =>
          obtain ⟨renders, answer, _⟩ := host_answered did
          rw [answer]
          exact accepted page submits unread

theorem forms_run (run : Guided (fun _ => fineEffect rusAuth)
      (fun tr m l => TakesTurns (fun i => (tasks i).circuit) tr m l ∧ StartsValid tasks tr m l)
      (formPool site tasks s) tr q) : FormsAccepted tasks tr q := by
  induction run with
  | nil =>
    constructor
    case unread => exact fun i page _ begun => absurd rfl begun
    case read => exact fun i page model _ member => absurd member List.not_mem_nil
  | @snoc m q tr l before last meets ih =>
    obtain ⟨i, e, a⟩ := l
    exact forms_step (guided_exec before) ih last meets.1 meets.2

theorem request_read (run : Exec (fun _ => fineEffect rusAuth) (formPool site tasks s) tr q)
    {request : RusAuthCallToConfirmRequest} {reply : Except Exn RusAuthCallToConfirmResponse}
    (asked : (i, ⟨.inr (.inl (.callToConfirm request)), reply⟩) ∈ tr) :
    ∃ page model, tasks i = .submit page ∧ (i, ⟨.inr (.inr (.model page)), model⟩) ∈ tr ∧
      request.phoneNumber = model.phoneNumber ∧
      request.expirationMinute = model.expirationMinute := by
  obtain ⟨xs, ys, rfl⟩ := List.append_of_mem asked
  have asks : Requested site (own i xs) request (.app (tasks i)) :=
    exec_obeys_at run (task_sourced_access site (.app (tasks i)))
  cases task : tasks i with
  | submit page =>
    rw [task] at asks
    obtain ⟨model, read, is⟩ := asks
    exact ⟨page, model, rfl, List.mem_append_left _ (mem_own.mp read), by rw [is]; rfl,
      by rw [is]; rfl⟩
  | _ => rw [task] at asks; exact asks.elim

theorem record_requested (run : Exec (fun _ => fineEffect rusAuth)
      (formPool site tasks (∅, service, circuits)) tr q) {id : Str} {flow : ExampleConfirmationFlow}
    (seen : Seen q.shared.1 tr id flow) :
    ∃ i request reply, (i, ⟨.inr (.inl (.callToConfirm request)), reply⟩) ∈ tr ∧
      flow.clientPhoneNumber = request.phoneNumber := by
  induction run generalizing flow with
  | nil =>
    rcases seen with stored | ⟨i, ⟨⟩⟩ | ⟨i, ⟨⟩⟩
    simp [facadePool, AList.lookup_empty] at stored
  | @snoc m q tr l before last ih =>
    have sourced := exec_obeys before last (task_sourced_access site (.app (tasks l.1)))
    have earlier : ∀ {old}, Seen m.shared.1 tr id old → ∃ i request reply,
        (i, ⟨.inr (.inl (.callToConfirm request)), reply⟩) ∈ tr ++ [l] ∧
          old.clientPhoneNumber = request.phoneNumber := by
      intro old sawOld
      obtain ⟨i, request, reply, asked, number⟩ := ih sawOld
      exact ⟨i, request, reply, List.mem_append_left _ asked, number⟩
    cases last with
    | @act i e next a s' ready did =>
      rcases seen_step did seen with old | rfl
      · exact earlier old
      · rcases sourced with ⟨⟨request, response, created, _, replied, rfl⟩, _⟩ | ⟨old, found, same⟩
        · exact ⟨i, request, .ok response, List.mem_append_left _ (mem_own.mp replied), rfl⟩
        · obtain ⟨j, request, reply, asked, number⟩ :=
            earlier (Or.inr (Or.inr ⟨i, mem_own.mp found⟩))
          exact ⟨j, request, reply, asked, same.clientPhoneNumber.trans number⟩

/-- The application asks RusAuth for a call only to a number of five to fifteen digits
    and with 1 to 60 minutes to wait, and the journal records such numbers only,
    however the form is edited meanwhile. -/
theorem only_accepted_forms_are_sent (run : Guided (fun _ => fineEffect rusAuth)
      (fun tr m l => TakesTurns (fun i => (tasks i).circuit) tr m l ∧ StartsValid tasks tr m l)
      (formPool site tasks (∅, service, circuits)) tr q) :
    (∀ i request reply, (i, ⟨.inr (.inl (.callToConfirm request)), reply⟩) ∈ tr →
      ValidNumber request.phoneNumber ∧ ValidMinute request.expirationMinute) ∧
    ∀ id flow, q.shared.1.lookup id = some flow → ValidNumber flow.clientPhoneNumber := by
  have sends : ∀ i request reply, (i, ⟨.inr (.inl (.callToConfirm request)), reply⟩) ∈ tr →
      ValidNumber request.phoneNumber ∧ ValidMinute request.expirationMinute := by
    intro i request reply asked
    obtain ⟨page, model, submits, read, number, minute⟩ := request_read (guided_exec run) asked
    have accepted := (forms_run run).read i page model submits read
    rw [number, minute]
    exact (form_valid_iff model).mp accepted
  refine ⟨sends, fun id flow stored => ?_⟩
  obtain ⟨i, request, reply, asked, number⟩ := record_requested (guided_exec run) (Or.inl stored)
  rw [number]
  exact (sends i request reply asked).1

end Runs

/- The form is spoiled while the request it was accepted for is on its way. -/
namespace SpoiledForm

inductive Party where
  | filling
  | sending
  | spoiling
  deriving DecidableEq

instance : Fintype Party := .ofList [.filling, .sending, .spoiling] fun party => by
  cases party <;> decide

def tasks : Party → AppTask
  | .filling => .edit Sample.page ⟨lit "79001234567", 10⟩
  | .sending => .submit Sample.page
  | .spoiling => .edit Sample.page ⟨lit "+7", 99⟩

def schedule : List Party :=
  .filling :: List.replicate 6 .sending ++ [.spoiling] ++ List.replicate 7 .sending

def start : FacadePool Nat Party := formPool Sample.site tasks (∅, 0, .initial)

def after : OuterTrace StoreSig Party × FacadePool Nat Party :=
  replay SecondStart.answers start schedule

theorem run : Guided (fun _ => fineEffect SecondStart.counting)
    (fun tr m l => TakesTurns (fun i => (tasks i).circuit) tr m l ∧ StartsValid tasks tr m l)
    start after.1 after.2 :=
  replay_guided (fun _ => Sample.answering_behaves _) .nil schedule (by decide)

end SpoiledForm

theorem spoiled_form_not_sent :
    ∃ flow, SpoiledForm.after.2.shared.1.lookup [116] = some flow ∧
      ValidNumber flow.clientPhoneNumber := by
  have stored : SpoiledForm.after.2.shared.1.lookup [116] = some (newFlow [116] ⟨some [116], none⟩
    (callToConfirmRequest Sample.site (lit "79001234567") [] 10) 0) := by decide
  exact ⟨_, stored, (only_accepted_forms_are_sent SpoiledForm.run).2 _ _ stored⟩

end RusAuthExample
