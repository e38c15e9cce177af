import RusAuthExample.PageViews
import RusAuthExample.RecordOrigins

/-!
What a rendering shows while callbacks and other circuits run. They change the
session of the page by the message of a callback only, and a record of the journal
by its status and dates; so the parts of a page fit together although each of them
was read at its own moment.
-/
namespace RusAuthExample
open Utf16Text OperationPrograms InterleavedRuns KeyedMemory ObservedRuns

variable {ς ι : Type} {S : Signature}

def CallbackText (message : Str) : Prop :=
  message = updatedMessage ∨ ∃ transactionId, message = callbackMessage transactionId

def TellsOfCallback : Assignment → Prop
  | .infoMessage (some message) => CallbackText message
  | .errorMessage none => True
  | _ => False

/-- A task changes the pages and the session of its own circuit. Without a circuit it
    tells sessions of callbacks. -/
def StaysHome (circuit : Option SessionId) : (S.sum (rusAuthSig.sum hostSig)).Op → Prop
  | .inr (.inr (.setIsBusy page _)) => circuit = some page.session
  | .inr (.inr (.edit page _)) => circuit = some page.session
  | .inr (.inr (.assign session assignment)) =>
    circuit = some session ∨ circuit = none ∧ TellsOfCallback assignment
  | _ => True

section Homes
variable {circuit : Option SessionId}

theorem stays_home_below {T : Signature} {e : (rusAuthSig.sum hostSig).Op}
    (home : StaysHome circuit (.inr e : (S.sum (rusAuthSig.sum hostSig)).Op)) :
    StaysHome circuit (.inr e : (T.sum (rusAuthSig.sum hostSig)).Op) := by
  match e with
  | .inl _ => trivial
  | .inr (.setIsBusy _ _) => exact home
  | .inr (.edit _ _) => exact home
  | .inr (.assign _ _) => exact home
  | .inr .arrive => trivial
  | .inr (.receive _) => trivial
  | .inr (.currentTransactionId _) => trivial
  | .inr (.model _) => trivial
  | .inr (.setLocalError _ _) => trivial
  | .inr .handlers => trivial
  | .inr (.addHandler _) => trivial
  | .inr (.removeHandler _) => trivial
  | .inr (.stateHasChanged _) => trivial

theorem publish_stays_home (e : AppSig.Op) (used : OfPublish e) : StaysHome none e := by
  match e with
  | .inl _ => trivial
  | .inr (.inr .handlers) => trivial
  | .inr (.inr (.currentTransactionId _)) => trivial
  | .inr (.inr (.assign _ (.infoMessage (some _)))) => exact Or.inr ⟨rfl, used⟩
  | .inr (.inr (.assign _ (.errorMessage none))) => exact Or.inr ⟨rfl, trivial⟩
  | .inr (.inr (.setLocalError _ _)) => trivial
  | .inr (.inr (.stateHasChanged _)) => trivial

theorem execute_stays_home (page : Page) {action : AppM Unit}
    (acts : action.Uses (StaysHome (some page.session))) :
    (executeAsync page action).Uses (StaysHome (some page.session)) := by
  have shown : (shownTransactionId page.session).Uses (StaysHome (some page.session)) :=
    shown_uses page.session trivial fun _ => trivial
  have tried : (attempted page action).Uses (StaysHome (some page.session)) :=
    Prog.uses_recover (Prog.uses_bind acts fun _ => Prog.uses_bind shown fun _ => trivial)
      fun ex => ⟨Or.inl rfl, fun _ => ⟨Or.inl rfl, fun _ => ⟨trivial, fun _ => trivial⟩⟩⟩
  rw [execute_eq]
  refine ⟨trivial, fun _ => ⟨rfl, fun _ => ⟨Or.inl rfl, fun _ => ⟨Or.inl rfl, fun _ => ?_⟩⟩⟩⟩
  show ((attempted page action).ensure (setIsBusy page false)).Uses _
  exact Prog.uses_ensure tried ⟨rfl, fun _ => trivial⟩

theorem start_stays_home (site : Site) (session : SessionId) (phoneNumber callbackUrl : Str)
    (expirationMinute : Int) :
    (startConfirmationAsync site session phoneNumber callbackUrl expirationMinute).Uses
      (StaysHome (some session)) := by
  refine ⟨trivial, fun (reply : Except Exn RusAuthCallToConfirmResponse) => ⟨trivial, fun _ => ?_⟩⟩
  cases reply with
  | error x => trivial
  | ok response =>
    refine ⟨trivial, fun (outcome : Except Exn ExampleConfirmationFlow) => ?_⟩
    cases outcome with
    | error x => trivial
    | ok flow =>
      exact ⟨Or.inl rfl, fun _ => ⟨Or.inl rfl, fun _ =>
        ⟨Or.inl rfl, fun _ => ⟨Or.inl rfl, fun _ => trivial⟩⟩⟩⟩

theorem check_stays_home (session : SessionId) (phoneNumber : Str) :
    (checkCurrentConfirmationAsync session phoneNumber).Uses (StaysHome (some session)) := by
  rw [check_eq]
  refine ⟨trivial, fun (tracked : Option Str) => ?_⟩
  cases tracked with
  | none => trivial
  | some id =>
    refine ⟨trivial, fun (reply : Except Exn RusCheckConfirmationResponse) => ⟨trivial, fun _ => ?_⟩⟩
    cases reply with
    | error x => trivial
    | ok response =>
      refine ⟨trivial, fun (outcome : Except Exn (Option ExampleConfirmationFlow)) => ?_⟩
      rcases outcome with x | _ | flow
      · trivial
      · trivial
      · exact ⟨Or.inl rfl, fun _ => ⟨Or.inl rfl, fun _ => trivial⟩⟩

theorem callback_stays_home (site : Site) (request : CallbackRequest) :
    (handleCallback site request).Uses (StaysHome none) := by
  refine ⟨trivial, fun _ => ⟨trivial, fun _ => ?_⟩⟩
  show (callbackEndpoint site request).Uses (StaysHome none)
  unfold callbackEndpoint
  split
  · trivial
  · trivial
  · refine ⟨trivial, fun (outcome : Except Exn (Option ExampleConfirmationFlow)) => ?_⟩
    rcases outcome with x | _ | flow
    · trivial
    · trivial
    · show (Prog.interp withPages ((publishAsync (updateOf flow) .none).onRight.bind fun _ =>
        .ret ActionResult.ok)).Uses _
      rw [Prog.interp_bind]
      exact Prog.uses_bind (Prog.uses_weaken (publish_uses _ _) publish_stays_home) fun _ => trivial

theorem app_task_stays_home (site : Site) (task : AppTask) :
    (task.program site).Uses (StaysHome task.circuit) := by
  cases task with
  | openPage page => exact ⟨trivial, fun _ => trivial⟩
  | disposePage page => exact ⟨trivial, fun _ => trivial⟩
  | edit page model => exact ⟨rfl, fun _ => trivial⟩
  | decide transactionId status => exact ⟨trivial, fun _ => trivial⟩
  | submit page =>
    have acts := start_stays_home site page.session
    exact Prog.uses_bind (execute_stays_home page ⟨trivial, fun (model : AuthorizeFormModel) =>
      Prog.uses_bind (f := fun _ => .ret ()) (acts model.phoneNumber _ model.expirationMinute)
        fun _ => trivial⟩) fun _ => trivial
  | checkStatus page =>
    have acts := check_stays_home page.session
    exact Prog.uses_bind (execute_stays_home page ⟨trivial, fun (model : AuthorizeFormModel) =>
      Prog.uses_bind (f := fun _ => .ret ()) (acts model.phoneNumber) fun _ => trivial⟩)
      fun _ => trivial
  | refresh page =>
    obtain ⟨kind, session, number⟩ := page
    cases kind with
    | account =>
      exact ⟨Or.inl rfl, fun _ => ⟨Or.inl rfl, fun _ =>
        Prog.uses_bind (render_uses _ trivial) fun _ => trivial⟩⟩
    | authorize =>
      exact ⟨Or.inl rfl, fun _ => ⟨Or.inl rfl, fun _ => ⟨trivial, fun _ =>
        Prog.uses_bind (render_uses _ trivial) fun _ => trivial⟩⟩⟩
  | callback request => exact Prog.uses_bind (callback_stays_home site request) fun _ => trivial

theorem task_stays_home (site : Site) (task : FacadeTask) :
    ((task.program site).interp withAccesses).Uses (StaysHome task.circuit) := by
  have whole : (task.program site).Uses (StaysHome task.circuit) := by
    cases task with
    | app task => exact Prog.uses_bind (app_task_stays_home site task) fun _ => trivial
    | start session phoneNumber callbackUrl expirationMinute =>
      exact Prog.uses_bind (start_stays_home site session _ _ _) fun _ => trivial
    | check session phoneNumber =>
      exact Prog.uses_bind (check_stays_home session phoneNumber) fun _ => trivial
  refine Prog.uses_interp whole fun e home => ?_
  cases e with
  | inl call => exact Prog.uses_on_left _ fun _ => trivial
  | inr e => exact ⟨stays_home_below home, fun _ => trivial⟩

end Homes

/-- What a session and its pages see of the steps that others take. -/
structure Undisturbed (session : SessionId) (s s' : App ς) : Prop where
  current : (s'.2.2.sessions session).currentTransactionId =
    (s.2.2.sessions session).currentTransactionId
  info : (s'.2.2.sessions session).infoMessage = (s.2.2.sessions session).infoMessage ∨
    ∃ message, CallbackText message ∧ (s'.2.2.sessions session).infoMessage = some message
  error : (s'.2.2.sessions session).errorMessage = (s.2.2.sessions session).errorMessage ∨
    (s'.2.2.sessions session).errorMessage = none
  form : ∀ page, page.session = session →
    (s'.2.2.pages page).isBusy = (s.2.2.pages page).isBusy ∧
      (s'.2.2.pages page).model = (s.2.2.pages page).model
  keys : ∀ id ∈ s.1, id ∈ s'.1

theorem undisturbed_refl (session : SessionId) (s : App ς) : Undisturbed session s s :=
  ⟨rfl, Or.inl rfl, Or.inl rfl, fun _ _ => ⟨rfl, rfl⟩, fun _ key => key⟩

theorem undisturbed_trans {session : SessionId} {s t u : App ς} (first : Undisturbed session s t)
    (second : Undisturbed session t u) : Undisturbed session s u where
  current := second.current.trans first.current
  info := by
    rcases second.info with same | told
    · rcases first.info with same' | ⟨message, text, told⟩
      · exact Or.inl (same.trans same')
      · exact Or.inr ⟨message, text, same.trans told⟩
    · exact Or.inr told
  error := by
    rcases second.error with same | cleared
    · rcases first.error with same' | cleared
      · exact Or.inl (same.trans same')
      · exact Or.inr (same.trans cleared)
    · exact Or.inr cleared
  form page here := ⟨((second.form page here).1).trans (first.form page here).1,
    ((second.form page here).2).trans (first.form page here).2⟩
  keys id key := second.keys id (first.keys id key)

section Steps
variable {rusAuth : Semantics rusAuthSig ς} {issued : ς → Str → Prop} {site : Site}
  {tasks : ι → FacadeTask} {s s' : App ς} {tr : OuterTrace StoreSig ι} {i : ι} {e : FineSig.Op}
  {a : FineSig.Answer e}

theorem model_kept (did : fineEffect rusAuth s e a s') {page : Page}
    (edits : ∀ model, e ≠ .inr (.inr (.edit page model))) :
    (s'.2.2.pages page).model = (s.2.2.pages page).model := by
  rcases page_step did page with ⟨model, is, _⟩ | ⟨_, _, after⟩ | ⟨_, _, after⟩ | same
  · exact absurd is (edits model)
  · rw [after]
  · rw [after]
  · rw [same]

theorem busy_kept (did : fineEffect rusAuth s e a s') {page : Page}
    (busy : ∀ isBusy, e ≠ .inr (.inr (.setIsBusy page isBusy))) :
    (s'.2.2.pages page).isBusy = (s.2.2.pages page).isBusy := by
  rcases page_step did page with ⟨_, _, after⟩ | ⟨isBusy, is, _⟩ | ⟨_, _, after⟩ | same
  · rw [after]
  · exact absurd is (busy isBusy)
  · rw [after]
  · rw [same]

theorem record_kept {tr' : OuterTrace StoreSig ι} (origins : Origins issued s tr)
    (origins' : Origins issued s' tr') (later : tr <+: tr') (kept : ∀ id ∈ s.1, id ∈ s'.1)
    {id : Str} {flow : ExampleConfirmationFlow} (stored : s.1.lookup id = some flow) :
    ∃ flow', s'.1.lookup id = some flow' ∧ SameOrigin flow' flow := by
  have key : id ∈ s.1 := AList.lookup_isSome.mp (by rw [stored]; rfl)
  obtain ⟨flow', stored'⟩ := Option.isSome_iff_exists.mp (AList.lookup_isSome.mpr (kept id key))
  obtain ⟨origin, began, same⟩ := origins.seen id flow (Or.inl stored)
  obtain ⟨origin', began', same'⟩ := origins'.seen id flow' (Or.inl stored')
  have one := origins'.one id origin' origin began' (origin_later later began)
  exact ⟨flow', stored', same_origin_trans (same_origin_trans same' one) (same_origin_symm same)⟩

theorem told_messages {assignment : Assignment} (tells : TellsOfCallback assignment)
    (session : ExampleAuthSession) :
    ((assignment.apply session).infoMessage = session.infoMessage ∨
      ∃ message, CallbackText message ∧ (assignment.apply session).infoMessage = some message) ∧
    ((assignment.apply session).errorMessage = session.errorMessage ∨
      (assignment.apply session).errorMessage = none) := by
  match assignment with
  | .infoMessage (some message) => exact ⟨Or.inr ⟨message, tells, rfl⟩, Or.inl rfl⟩
  | .errorMessage none => exact ⟨Or.inl rfl, Or.inr rfl⟩

theorem undisturbed_step (did : fineEffect rusAuth s e a s')
    (home : StaysHome (tasks i).circuit e) {session : SessionId}
    (elsewhere : (tasks i).circuit ≠ some session ∨ AtRusAuth e) : Undisturbed session s s' := by
  have away : ∀ {e : hostSig.Op}, (tasks i).circuit ≠ some session ∨
      AtRusAuth (.inr (.inr e) : FineSig.Op) → (tasks i).circuit ≠ some session :=
    fun elsewhere => elsewhere.resolve_right id
  have tells : ∀ assignment, e = .inr (.inr (.assign session assignment)) →
      TellsOfCallback assignment := by
    rintro assignment rfl
    rcases home with inside | ⟨_, told⟩
    · exact absurd inside (away elsewhere)
    · exact told
  constructor
  case current => exact current_kept did fun id is => tells _ is
  case info =>
    rcases session_step did session with ⟨assignment, is, after⟩ | ⟨_, same⟩
    · rw [after]
      exact (told_messages (tells assignment is) _).1
    · exact Or.inl (by rw [same])
  case error =>
    rcases session_step did session with ⟨assignment, is, after⟩ | ⟨_, same⟩
    · rw [after]
      exact (told_messages (tells assignment is) _).2
    · exact Or.inl (by rw [same])
  case form =>
    rintro page rfl
    refine ⟨busy_kept did ?_, model_kept did ?_⟩
    · rintro isBusy rfl
      exact away elsewhere home
    · rintro model rfl
      exact away elsewhere home
  case keys => exact fun _ key => key_kept did key

end Steps

section Observation
variable [DecidableEq ι] {rusAuth : Semantics rusAuthSig ς} {issued : ς → Str → Prop} {site : Site}
  {tasks : ι → FacadeTask} {service : ς} {circuits : Circuits} {past : OuterTrace StoreSig ι}
  {p : FacadePool ς ι} {session : SessionId}

/-- A state of the run `p` goes on with while the session's page is rendered. -/
structure Meanwhile (rusAuth : Semantics rusAuthSig ς) (tasks : ι → FacadeTask)
    (p : FacadePool ς ι) (session : SessionId) (t : App ς × OuterTrace StoreSig ι) : Prop where
  reached : ∃ q, Exec (fun _ => fineEffect rusAuth) p t.2 q ∧ q.shared = t.1
  apart : ∀ l ∈ t.2, (tasks l.1).circuit ≠ some session ∨ AtRusAuth l.2.1
  calm : Undisturbed session p.shared t.1

structure GoesOn (session : SessionId) (t t' : App ς × OuterTrace StoreSig ι) : Prop where
  calm : Undisturbed session t.1 t'.1
  log : t.2 <+: t'.2

instance : Std.Refl (GoesOn (ς := ς) (ι := ι) session) :=
  ⟨fun t => ⟨undisturbed_refl session t.1, List.prefix_refl t.2⟩⟩

instance : IsTrans (App ς × OuterTrace StoreSig ι) (GoesOn session) :=
  ⟨fun _ _ _ first second => ⟨undisturbed_trans first.calm second.calm, first.log.trans second.log⟩⟩

abbrev lookingBack (rusAuth : Semantics rusAuthSig ς) :
    Looking LookSig (App ς × OuterTrace StoreSig ι) := fun t => looking rusAuth t.1

/-- The rendering never fails, and what it shows is as `Q` says. -/
abbrev Renders {B : Type} (rusAuth : Semantics rusAuthSig ς) (tasks : ι → FacadeTask)
    (p : FacadePool ς ι) (session : SessionId) (Q : B → App ς × OuterTrace StoreSig ι → Prop)
    (view : ViewM B) (t : App ς × OuterTrace StoreSig ι) : Prop :=
  Returns (lookingBack rusAuth) (Meanwhile rusAuth tasks p session) (GoesOn session) Q view t

theorem meanwhile_start : Meanwhile rusAuth tasks p session (p.shared, []) :=
  ⟨⟨p, .nil, rfl⟩, fun _ member => absurd member List.not_mem_nil,
    undisturbed_refl session p.shared⟩

theorem rendered {s : App ς}
    (run : Exec (fun _ => fineEffect rusAuth) (facadePool site tasks s) past p)
    {B : Type} {view rest : ViewM B} {tr : OuterTrace StoreSig ι} {q : FacadePool ς ι}
    {Q : B → App ς × OuterTrace StoreSig ι → Prop}
    (observed : Observed (fun _ => fineEffect rusAuth) (looking rusAuth) (Elsewhere tasks session) p
      view tr q rest)
    (renders : Renders rusAuth tasks p session Q view (p.shared, [])) :
    (∀ x, rest ≠ .raise x) ∧ ∀ b, rest = .ret b → Q b (q.shared, tr) := by
  refine observed_returns observed (fun _ _ _ _ seen => seen) ?_ meanwhile_start renders
  intro tr m l r exec step elsewhere sofar
  have calm : Undisturbed session m.shared r.shared := by
    have home := exec_obeys (exec_trans run exec) step (Prog.obeys_of_uses
      (task_stays_home site (tasks l.1)) (fun _ _ stays => stays) [])
    cases step with
    | act ready did => exact undisturbed_step did home elsewhere
  refine ⟨⟨⟨r, .snoc exec step, rfl⟩, fun l' member => ?_, undisturbed_trans sofar.calm calm⟩,
    ⟨calm, List.prefix_append _ _⟩⟩
  rcases List.mem_append.mp member with old | new
  · exact sofar.apart l' old
  · rw [List.mem_singleton.mp new]
    exact elsewhere

/-- The records that are there when the rendering begins keep their origin. -/
def KeepsRecords (rusAuth : Semantics rusAuthSig ς) (p : FacadePool ς ι) : Prop :=
  ∀ xs m, Exec (fun _ => fineEffect rusAuth) p xs m → ∀ id flow, p.shared.1.lookup id = some flow →
    ∃ flow', m.shared.1.lookup id = some flow' ∧ SameOrigin flow' flow

theorem keeps_records (ids : IssuesOnce rusAuth issued)
    (run : Exec (fun _ => fineEffect rusAuth) (facadePool site tasks (∅, service, circuits)) past p) :
    KeepsRecords rusAuth p := by
  intro xs m exec id flow stored
  have kept : ∀ id ∈ p.shared.1, id ∈ m.shared.1 := by
    induction exec with
    | nil => exact fun id key => key
    | snoc before last ih =>
      cases last with
      | act ready did => exact fun id key => key_kept did (ih id key)
  exact record_kept (origins_run ids run) (origins_run ids (exec_trans run exec))
    (List.prefix_append _ _) kept stored

theorem current_id_renders (t : App ς × OuterTrace StoreSig ι) :
    Renders rusAuth tasks p session
      (fun tracked _ => tracked = (p.shared.2.2.sessions session).currentTransactionId)
      (ofApp (currentTransactionId session)) t :=
  returns_look fun _ (_ : Option Str) _ inv₁ seen => returns_ret fun _ _ _ =>
    (current_read seen).symm.trans inv₁.calm.current

def ShownOnce (rusAuth : Semantics rusAuthSig ς) (p : FacadePool ς ι) (tr : OuterTrace StoreSig ι)
    (id : Str) (P : ExampleConfirmationFlow → Prop) : Prop :=
  ∃ xs m flow, xs <+: tr ∧ Exec (fun _ => fineEffect rusAuth) p xs m ∧
    m.shared.1.lookup id = some flow ∧ P flow

theorem shown_once_later {tr tr' : OuterTrace StoreSig ι} (later : tr <+: tr') {id : Str}
    {P Q : ExampleConfirmationFlow → Prop} (shown : ShownOnce rusAuth p tr id P)
    (each : ∀ flow, P flow → Q flow) : ShownOnce rusAuth p tr' id Q := by
  obtain ⟨xs, m, flow, early, exec, stored, holds⟩ := shown
  exact ⟨xs, m, flow, early.trans later, exec, stored, each flow holds⟩

def activeId (s : App ς) (session : SessionId) : Option Str :=
  (s.2.2.sessions session).currentTransactionId.filter fun id => isBlank id = false

/-- What CurrentFlow yields during the rendering. -/
def FoundCurrent (rusAuth : Semantics rusAuthSig ς) (p : FacadePool ς ι) (session : SessionId)
    (tr : OuterTrace StoreSig ι) : Option ExampleConfirmationFlow → Prop
  | none => activeId p.shared session = none
  | some flow => ∃ id first, activeId p.shared session = some id ∧
    p.shared.1.lookup id = some first ∧ SameOrigin flow first ∧
    ShownOnce rusAuth p tr id (· = flow)

theorem current_flow_renders
    {circuit : ι → Option SessionId} (keys : KeepsKeys circuit p.shared past)
    (records : KeepsRecords rusAuth p)
    (t : App ς × OuterTrace StoreSig ι) :
    Renders rusAuth tasks p session (fun found t' => FoundCurrent rusAuth p session t'.2 found)
      (currentFlow session) t := by
  refine returns_look fun t₁ (tracked : Option Str) _ inv₁ seen => ?_
  have current : (p.shared.2.2.sessions session).currentTransactionId = tracked :=
    inv₁.calm.current.symm.trans (current_read seen)
  cases tracked with
  | none => exact returns_ret fun _ _ _ => by simp [FoundCurrent, activeId, current]
  | some id =>
    show Renders rusAuth tasks p session _ ((if isBlank id then Prog.ret none
      else callStore (.get id)).interp withAccesses).onLeft t₁
    by_cases blank : isBlank id = true
    · rw [if_pos blank]
      exact returns_ret fun _ _ _ => by simp [FoundCurrent, activeId, current, blank]
    · have filled : isBlank id = false := by simpa using blank
      rw [if_neg blank]
      refine returns_look fun t₂ (found : Option ExampleConfirmationFlow) _ inv₂ seen => ?_
      have active : activeId p.shared session = some id := by simp [activeId, current, filled]
      obtain ⟨first, known⟩ := Option.isSome_iff_exists.mp
        (AList.lookup_isSome.mpr (keys.current session id current))
      obtain ⟨q, exec, reached⟩ := inv₂.reached
      obtain ⟨flow, stored, same⟩ := records t₂.2 q exec id first known
      rw [reached] at stored
      obtain rfl : found = some flow := (effect_get seen.1).1.trans stored
      refine returns_ret fun t₃ later _ => ⟨id, first, active, known, same, ?_⟩
      exact ⟨t₂.2, q, flow, later.log, exec, by rwa [reached], rfl⟩

theorem of_current_flow_renders
    {circuit : ι → Option SessionId} (keys : KeepsKeys circuit p.shared past)
    (records : KeepsRecords rusAuth p)
    {t : App ς × OuterTrace StoreSig ι} (inv : Meanwhile rusAuth tasks p session t) {id : Str}
    {first : ExampleConfirmationFlow} (active : activeId p.shared session = some id)
    (known : p.shared.1.lookup id = some first) (property : ExampleConfirmationFlow → Str) :
    Renders rusAuth tasks p session
      (fun text t' => ∃ flow, text = property flow ∧ SameOrigin flow first ∧
        ShownOnce rusAuth p t'.2 id (· = flow)) (ofCurrentFlow session property) t := by
  refine returns_bind inv (current_flow_renders keys records t) fun found t' _ _ current => ?_
  cases found with
  | none => cases active.symm.trans current
  | some flow =>
    obtain ⟨id', first', active', known', same, shown⟩ := current
    cases active.symm.trans active'
    cases known.symm.trans known'
    exact returns_ret fun _ later _ =>
      ⟨flow, rfl, same, shown_once_later later.log shown fun _ is => is⟩

/-- The card of a transaction whose record was `first` when the rendering began: what
    identifies it is taken from that record, and its status and its dates are each
    those of the record at some moment of the rendering. -/
structure CardShows (rusAuth : Semantics rusAuthSig ς) (format : DateTime → Str)
    (p : FacadePool ς ι) (tr : OuterTrace StoreSig ι) (id : Str) (first : ExampleConfirmationFlow)
    (card : TransactionCard) : Prop where
  transactionId : card.transactionId = id
  clientPhoneNumber : card.clientPhoneNumber = toDisplayString (some first.clientPhoneNumber)
  confirmationPhoneNumber :
    card.confirmationPhoneNumber = toDisplayString first.confirmationPhoneNumber
  createdOn : card.createdOn = formatDate format (some first.createdOn)
  cssClass : ShownOnce rusAuth p tr id fun flow => card.cssClass = getStatusCssClass flow.status
  statusText : ShownOnce rusAuth p tr id fun flow => card.statusText = flow.status.toDisplayString
  callbackReceivedOn : ShownOnce rusAuth p tr id fun flow =>
    card.callbackReceivedOn = formatDate format flow.callbackReceivedOn
  lastManualCheckOn : ShownOnce rusAuth p tr id fun flow =>
    card.lastManualCheckOn = formatDate format flow.lastManualCheckOn

theorem card_shows_later {format : DateTime → Str} {tr tr' : OuterTrace StoreSig ι}
    (later : tr <+: tr') {id : Str} {first : ExampleConfirmationFlow} {card : TransactionCard}
    (shows : CardShows rusAuth format p tr id first card) :
    CardShows rusAuth format p tr' id first card :=
  { shows with
    cssClass := shown_once_later later shows.cssClass fun _ is => is
    statusText := shown_once_later later shows.statusText fun _ is => is
    callbackReceivedOn := shown_once_later later shows.callbackReceivedOn fun _ is => is
    lastManualCheckOn := shown_once_later later shows.lastManualCheckOn fun _ is => is }

theorem card_renders
    {circuit : ι → Option SessionId} (keys : KeepsKeys circuit p.shared past)
    (records : KeepsRecords rusAuth p)
    {t : App ς × OuterTrace StoreSig ι} (inv : Meanwhile rusAuth tasks p session t) {id : Str}
    {first : ExampleConfirmationFlow} (active : activeId p.shared session = some id)
    (known : p.shared.1.lookup id = some first) (format : DateTime → Str) :
    Renders rusAuth tasks p session (fun card t' => CardShows rusAuth format p t'.2 id first card)
      (renderCard format session) t := by
  have each := fun {t} (inv : Meanwhile rusAuth tasks p session t) =>
    of_current_flow_renders keys records inv active known
  refine returns_bind inv (each inv _) fun cssClass t₁ _ inv₁ ⟨f₁, is₁, _, shown₁⟩ => ?_
  refine returns_bind inv₁ (each inv₁ _) fun statusText t₂ on₂ inv₂ ⟨f₂, is₂, _, shown₂⟩ => ?_
  refine returns_bind inv₂ (each inv₂ _) fun transactionId t₃ on₃ inv₃ ⟨f₃, is₃, same₃, _⟩ => ?_
  refine returns_bind inv₃ (each inv₃ _) fun clientNumber t₄ on₄ inv₄ ⟨f₄, is₄, same₄, _⟩ => ?_
  refine returns_bind inv₄ (each inv₄ _) fun number t₅ on₅ inv₅ ⟨f₅, is₅, same₅, _⟩ => ?_
  refine returns_bind inv₅ (each inv₅ _) fun createdOn t₆ on₆ inv₆ ⟨f₆, is₆, same₆, _⟩ => ?_
  refine returns_bind inv₆ (each inv₆ _) fun callbackOn t₇ on₇ inv₇ ⟨f₇, is₇, _, shown₇⟩ => ?_
  refine returns_bind inv₇ (each inv₇ _) fun checkOn t₈ on₈ inv₈ ⟨f₈, is₈, _, shown₈⟩ => ?_
  refine returns_ret fun t₉ on₉ _ => ?_
  have after₇ : t₇.2 <+: t₉.2 := on₈.log.trans on₉.log
  have after₂ : t₂.2 <+: t₉.2 :=
    on₃.log.trans (on₄.log.trans (on₅.log.trans (on₆.log.trans (on₇.log.trans after₇))))
  constructor
  case transactionId => rw [is₃, same₃.transactionId, keys.named id first known]
  case clientPhoneNumber => rw [is₄, same₄.clientPhoneNumber]
  case confirmationPhoneNumber => rw [is₅, same₅.confirmationPhoneNumber]
  case createdOn => rw [is₆, same₆.createdOn]
  case cssClass => exact shown_once_later (on₂.log.trans after₂) shown₁ fun _ is => by rw [is, is₁]
  case statusText => exact shown_once_later after₂ shown₂ fun _ is => by rw [is, is₂]
  case callbackReceivedOn => exact shown_once_later after₇ shown₇ fun _ is => by rw [is, is₇]
  case lastManualCheckOn => exact shown_once_later on₉.log shown₈ fun _ is => by rw [is, is₈]

/-- The message may be anything; asking for it disturbs nothing. -/
theorem message_renders (e : ViewOp) (message : viewSig.Answer e → Option Str)
    {t : App ς × OuterTrace StoreSig ι} :
    Renders rusAuth tasks p session (fun _ _ => True)
      (shownMessage ((look e).bind fun a => .ret (message a))) t := by
  refine returns_look fun t₁ a _ _ _ => ?_
  show Renders rusAuth tasks p session _ (if isNullOrWhiteSpace (message a) then Prog.ret none
    else ((look e).bind fun a => .ret (message a)).bind fun shown => .ret (some shown)) t₁
  split
  · exact returns_ret fun _ _ _ => trivial
  · exact returns_look fun _ _ _ _ _ => returns_ret fun _ _ _ => trivial

/-- The form shows one model, and its buttons agree with the page. -/
structure FormShows (site : Site) (p : FacadePool ς ι) (page : Page) (form : FormView) : Prop where
  model : AuthorizeFormModel.mk form.phoneNumber form.expirationMinute =
    (p.shared.2.2.pages page).model
  callbackUrl : form.callbackUrl = buildCallbackUrl site (site.baseUri page.session)
  submitDisabled : form.submitDisabled = (p.shared.2.2.pages page).isBusy
  checkDisabled : form.checkDisabled = (p.shared.2.2.pages page).isBusy
  refreshDisabled : form.refreshDisabled = (p.shared.2.2.pages page).isBusy

theorem model_read {s s' : App ς} {page : Page} {model : AuthorizeFormModel}
    (did : fineEffect rusAuth s (.inr (.inr (.model page))) model s') :
    (s.2.2.pages page).model = model := by
  obtain ⟨renders, answer, _⟩ := host_answered did
  exact answer.symm

theorem form_renders (site : Site) (page : Page) (t : App ς × OuterTrace StoreSig ι) :
    Renders rusAuth tasks p page.session (fun form _ => FormShows site p page form)
      (renderForm site page) t := by
  have model : ∀ {t : App ς × OuterTrace StoreSig ι} {model : AuthorizeFormModel},
      Meanwhile rusAuth tasks p page.session t →
      lookingBack rusAuth t (.inl (.inr (.inr (.model page)))) model →
      (p.shared.2.2.pages page).model = model := fun inv seen =>
    ((inv.calm.form page rfl).2.symm).trans (model_read seen)
  have busy : ∀ {t : App ς × OuterTrace StoreSig ι} {isBusy : Bool},
      Meanwhile rusAuth tasks p page.session t → lookingBack rusAuth t (.inr (.isBusy page)) isBusy →
      isBusy = (p.shared.2.2.pages page).isBusy := fun inv seen =>
    seen.trans (inv.calm.form page rfl).1
  refine returns_look fun _ (m₁ : AuthorizeFormModel) _ inv₁ seen₁ => ?_
  refine returns_look fun _ (m₂ : AuthorizeFormModel) _ inv₂ seen₂ => ?_
  refine returns_look fun _ (b₁ : Bool) _ inv₃ seen₃ => ?_
  refine returns_look fun _ (b₂ : Bool) _ inv₄ seen₄ => ?_
  refine returns_look fun _ (b₃ : Bool) _ inv₅ seen₅ => returns_ret fun _ _ _ => ?_
  refine ⟨?_, rfl, busy inv₃ seen₃, busy inv₄ seen₄, busy inv₅ seen₅⟩
  obtain rfl := (model inv₁ seen₁).symm.trans (model inv₂ seen₂)
  exact (model inv₁ seen₁).symm

/-- What an Authorize page shows: no card if its session tracks no transaction; else
    one card, of the transaction tracked when the rendering began. -/
structure AuthorizeShows (rusAuth : Semantics rusAuthSig ς) (format : DateTime → Str) (site : Site)
    (p : FacadePool ς ι) (page : Page) (tr : OuterTrace StoreSig ι) (view : AuthorizeView) :
    Prop where
  empty : view.card = none ↔ activeId p.shared page.session = none
  card : ∀ card, view.card = some card → ∃ id first, activeId p.shared page.session = some id ∧
    p.shared.1.lookup id = some first ∧ CardShows rusAuth format p tr id first card
  form : FormShows site p page view.form

theorem status_renders (format : DateTime → Str)
    {circuit : ι → Option SessionId} (keys : KeepsKeys circuit p.shared past)
    (records : KeepsRecords rusAuth p)
    {t : App ς × OuterTrace StoreSig ι} (inv : Meanwhile rusAuth tasks p session t) :
    Renders rusAuth tasks p session (fun card t' =>
        (card = none ↔ activeId p.shared session = none) ∧
        ∀ shown, card = some shown → ∃ id first, activeId p.shared session = some id ∧
          p.shared.1.lookup id = some first ∧ CardShows rusAuth format p t'.2 id first shown)
      (renderStatus format session) t := by
  refine returns_bind inv (current_flow_renders keys records t) fun found t₁ _ inv₁ current => ?_
  cases found with
  | none => exact returns_ret fun _ _ _ => ⟨⟨fun _ => current, fun _ => rfl⟩, nofun⟩
  | some flow =>
    obtain ⟨id, first, active, known, _⟩ := current
    refine returns_bind inv₁ (card_renders keys records inv₁ active known format)
      fun card t₂ _ _ shows => ?_
    refine returns_ret fun t₃ on₃ _ => ⟨by simp [active], fun shown is => ?_⟩
    cases is
    exact ⟨id, first, active, known, card_shows_later on₃.log shows⟩

theorem authorize_renders (format : DateTime → Str) (site : Site) (page : Page)
    {circuit : ι → Option SessionId} (keys : KeepsKeys circuit p.shared past)
    (records : KeepsRecords rusAuth p) :
    Renders rusAuth tasks p page.session
      (fun view t' => AuthorizeShows rusAuth format site p page t'.2 view)
      (renderAuthorize format site page) (p.shared, []) := by
  refine returns_bind meanwhile_start (status_renders format keys records meanwhile_start)
    fun card t₁ _ inv₁ ⟨empty, shows⟩ => ?_
  refine returns_bind inv₁ (message_renders (.localError page) id) fun localError t₂ on₂ inv₂ _ => ?_
  refine returns_bind inv₂ (form_renders site page t₂) fun form t₃ on₃ _ holds => ?_
  refine returns_ret fun t₄ on₄ _ => ⟨empty, fun shown is => ?_, holds⟩
  obtain ⟨id, first, active, known, card⟩ := shows shown is
  exact ⟨id, first, active, known,
    card_shows_later (on₂.log.trans (on₃.log.trans on₄.log)) card⟩

/-- While an Authorize page is rendered, whatever callbacks and other circuits do: the
    markup never finds CurrentFlow null where it has found it before, all parts of the
    page speak of the transaction tracked when the rendering began, and the form shows
    one model and three buttons that agree. -/
theorem authorize_page_shows_one_transaction (ids : IssuesOnce rusAuth issued)
    (run : Exec (fun _ => fineEffect rusAuth) (facadePool site tasks (∅, service, circuits)) past p)
    (untracked : ∀ session, (circuits.sessions session).currentTransactionId = none)
    {format : DateTime → Str} {page : Page} {rest : ViewM AuthorizeView}
    {tr : OuterTrace StoreSig ι} {q : FacadePool ς ι}
    (observed : Observed (fun _ => fineEffect rusAuth) (looking rusAuth)
      (Elsewhere tasks page.session) p (renderAuthorize format site page) tr q rest) :
    (∀ x, rest ≠ .raise x) ∧
      ∀ view, rest = .ret view → AuthorizeShows rusAuth format site p page tr view :=
  rendered run observed
    (authorize_renders format site page (keys_run run untracked) (keeps_records ids run))

end Observation

namespace Sample

def sees (service : (e : rusAuthSig.Op) → ς → rusAuthSig.Answer e × ς) :
    (e : LookSig.Op) → App ς → LookSig.Answer e
  | .inl e, s => (answering service e s).1
  | .inr (.isBusy page), s => (s.2.2.pages page).isBusy
  | .inr (.localError page), s => (s.2.2.pages page).localError
  | .inr (.infoMessage session), s => (s.2.2.sessions session).infoMessage
  | .inr (.errorMessage session), s => (s.2.2.sessions session).errorMessage
  | .inr .values, s => s.1.entries.map Sigma.snd

theorem sees_right (rusAuth : Semantics rusAuthSig ς)
    (service : (e : rusAuthSig.Op) → ς → rusAuthSig.Answer e × ς) (e : LookSig.Op) (s : App ς)
    (reads : OnlyLooks e) : looking rusAuth s e (sees service e s) := by
  match e with
  | .inl (.inl (.inl (.get id))) => exact ⟨rfl, rfl⟩
  | .inl (.inr (.inr (.currentTransactionId _))) => exact ⟨⟨⟨fun _ => .ok (), rfl⟩, rfl⟩, rfl⟩
  | .inl (.inr (.inr (.model _))) => exact ⟨⟨⟨fun _ => .ok (), rfl⟩, rfl⟩, rfl⟩
  | .inr (.isBusy _) => rfl
  | .inr (.localError _) => rfl
  | .inr (.infoMessage _) => rfl
  | .inr (.errorMessage _) => rfl
  | .inr .values => exact List.Perm.refl _

def returned {B : Type} : ViewM B → Option B
  | .ret b => some b
  | _ => none

theorem returned_ret {B : Type} {view : ViewM B} {b : B} (is : returned view = some b) :
    view = .ret b := by
  cases view with
  | ret b' => rw [Option.some.inj is]
  | raise x => cases is
  | op e next => cases is

end Sample

/- A callback is processed while the card of its transaction is rendered: the pill has
   the class of a transaction that waits and the text of one that is confirmed. -/
namespace CallbackWhileRendering

def sent : OuterTrace StoreSig EditedForm.Party × FacadePool Nat EditedForm.Party :=
  replay SecondStart.answers EditedForm.start (.filling :: List.replicate 16 .sending)

theorem run : Exec (fun _ => fineEffect SecondStart.counting) EditedForm.start sent.1 sent.2 :=
  replay_exec (fun _ => Sample.answering_behaves _) _ _

def format (_ : DateTime) : Str := lit "2026"

/-- The rendering begins, the callback is processed, the rendering goes on. -/
def schedule (before : Nat) : List (Option EditedForm.Party) :=
  List.replicate before none ++ List.replicate 12 (some .webhook) ++ List.replicate 20 none

def after {B : Type} (view : ViewM B) (before : Nat) :
    OuterTrace StoreSig EditedForm.Party × FacadePool Nat EditedForm.Party × ViewM B :=
  watch SecondStart.answers (Sample.sees SecondStart.service) sent.2 view (schedule before)

theorem observed {B : Type} {view : ViewM B} (reads : view.Uses OnlyLooks) (before : Nat) :
    Observed (fun _ => fineEffect SecondStart.counting) (looking SecondStart.counting)
      (Elsewhere EditedForm.tasks 0) sent.2 view (after view before).1 (after view before).2.1
      (after view before).2.2 := by
  refine watch_observed (fun _ => Sample.answering_behaves _) (Sample.sees_right _ _) .start reads
    (schedule before) ?_
  intro i member m o
  cases i with
  | webhook => exact Or.inl nofun
  | _ => simp [schedule] at member

def card : OuterTrace StoreSig EditedForm.Party × FacadePool Nat EditedForm.Party ×
    ViewM AuthorizeView := after (renderAuthorize format Sample.site Sample.page) 4

end CallbackWhileRendering

example : (match CallbackWhileRendering.card.2.2 with
    | .ret view => view.card.map fun card => (card.cssClass, card.statusText)
    | _ => none) =
      some (lit "status-pill status-pill-pending", lit "подтверждено") := by
  decide

theorem torn_card_of_one_transaction :
    ∃ view, CallbackWhileRendering.card.2.2 = .ret view ∧
      AuthorizeShows SecondStart.counting CallbackWhileRendering.format Sample.site
        CallbackWhileRendering.sent.2 Sample.page CallbackWhileRendering.card.1 view :=
  ⟨_, rfl, (authorize_page_shows_one_transaction SecondStart.issues_once
    CallbackWhileRendering.run (fun _ => rfl)
    (CallbackWhileRendering.observed (authorize_reads _ _ _) 4)).2 _ rfl⟩

end RusAuthExample
