import RusAuthExample.RenderedPages

/-!
The two messages of a session and the banners of the layout. Whoever sets one message
clears the other with its next step. The code of the circuit does both within one turn
of its dispatcher; a callback does it on a thread of its own, and the layout may be
rendered in between.
-/
namespace RusAuthExample
open Utf16Text OperationPrograms InterleavedRuns KeyedMemory ObservedRuns

variable {ς ι : Type} {S : Signature}

/-- The assignment that has to come next, if there is one. -/
def HostOp.clears : HostOp → Option HostOp
  | .assign session (.infoMessage (some _)) => some (.assign session (.errorMessage none))
  | .assign session (.errorMessage (some _)) => some (.assign session (.infoMessage none))
  | _ => none

def clears : (S.sum (rusAuthSig.sum hostSig)).Op → Option (S.sum (rusAuthSig.sum hostSig)).Op
  | .inr (.inr e) => e.clears.map fun e => .inr (.inr e)
  | _ => none

section Tasks

theorem set_info_clears (session : SessionId) (message : Str) :
    (setInfo session message).FollowsUp clears := by
  refine fun _ => ⟨?_, fun _ => ⟨nofun, trivial⟩⟩
  rintro e ⟨⟩
  exact ⟨_, rfl⟩

theorem set_error_clears (session : SessionId) (message : Str) :
    (setError session message).FollowsUp clears := by
  refine fun _ => ⟨?_, fun _ => ⟨nofun, trivial⟩⟩
  rintro e ⟨⟩
  exact ⟨_, rfl⟩

theorem clear_messages_clears (session : SessionId) :
    (clearMessages session).FollowsUp clears :=
  Prog.follows_up_of_uses ⟨rfl, fun _ => ⟨rfl, fun _ => trivial⟩⟩

theorem shown_clears (session : SessionId) : (shownTransactionId session).FollowsUp clears :=
  Prog.follows_up_of_uses (shown_uses session rfl fun _ => rfl)

theorem render_clears (page : Page) : (stateHasChanged page).FollowsUp clears :=
  Prog.follows_up_of_uses (render_uses page rfl)

theorem start_clears (site : Site) (session : SessionId) (phoneNumber callbackUrl : Str)
    (expirationMinute : Int) :
    (startConfirmationAsync site session phoneNumber callbackUrl expirationMinute).FollowsUp
      clears := by
  refine Prog.follows_up_op rfl fun (reply : Except Exn RusAuthCallToConfirmResponse) =>
    Prog.follows_up_op rfl fun _ => ?_
  cases reply with
  | error x => trivial
  | ok response =>
    refine Prog.follows_up_op rfl fun (outcome : Except Exn ExampleConfirmationFlow) => ?_
    cases outcome with
    | error x => trivial
    | ok flow =>
      refine Prog.follows_up_op rfl fun _ => Prog.follows_up_op rfl fun _ => ?_
      show ((setInfo session startedMessage).bind fun _ => .ret flow).FollowsUp clears
      exact Prog.follows_up_bind (set_info_clears session startedMessage) fun _ => trivial

theorem check_clears (session : SessionId) (phoneNumber : Str) :
    (checkCurrentConfirmationAsync session phoneNumber).FollowsUp clears := by
  rw [check_eq]
  refine Prog.follows_up_op rfl fun (tracked : Option Str) => ?_
  cases tracked with
  | none => trivial
  | some id =>
    refine Prog.follows_up_op rfl fun (reply : Except Exn RusCheckConfirmationResponse) =>
      Prog.follows_up_op rfl fun _ => ?_
    cases reply with
    | error x => trivial
    | ok response =>
      refine Prog.follows_up_op rfl fun (outcome : Except Exn (Option ExampleConfirmationFlow)) => ?_
      rcases outcome with x | _ | flow
      · trivial
      · trivial
      · show ((setInfo session (statusMessage response.status)).bind fun _ => .ret flow).FollowsUp _
        exact Prog.follows_up_bind (set_info_clears session _) fun _ => trivial

theorem execute_clears (page : Page) {action : AppM Unit} (acts : action.FollowsUp clears) :
    (executeAsync page action).FollowsUp clears := by
  have tried : (attempted page action).FollowsUp clears :=
    Prog.follows_up_recover (Prog.follows_up_bind acts fun _ =>
      Prog.follows_up_bind (shown_clears page.session) fun _ => trivial) fun ex =>
        Prog.follows_up_bind (set_error_clears page.session _) fun _ =>
          Prog.follows_up_op rfl fun _ => trivial
  rw [execute_eq]
  refine Prog.follows_up_op rfl fun _ => Prog.follows_up_op rfl fun _ => ?_
  show ((clearMessages page.session).bind fun _ =>
    (attempted page action).ensure (setIsBusy page false)).FollowsUp clears
  refine Prog.follows_up_bind (clear_messages_clears page.session) fun _ => ?_
  exact Prog.follows_up_ensure tried (Prog.follows_up_op rfl fun _ => trivial)

theorem handler_clears (page : Page) (update : ExampleConfirmationUpdate) :
    (onConfirmationUpdatedAsync page update).FollowsUp clears := by
  obtain ⟨kind, session, number⟩ := page
  cases kind with
  | account => exact Prog.follows_up_bind (set_info_clears session _) fun _ => render_clears _
  | authorize =>
    refine Prog.follows_up_bind (shown_clears session) fun shown => ?_
    dsimp only
    split
    · trivial
    · exact Prog.follows_up_bind (set_info_clears session _) fun _ =>
        Prog.follows_up_op rfl fun _ => render_clears _

theorem with_pages_clears (e : (callSig.sum (notifierSig Page)).Op) :
    (withPages e).FollowsUp clears := by
  match e with
  | .inl call => exact Prog.follows_up_op rfl fun _ => trivial
  | .inr .confirmationUpdated => exact Prog.follows_up_op rfl fun _ => trivial
  | .inr .isCancellationRequested => trivial
  | .inr (.invoke page update) =>
    have tried := Prog.follows_up_attempt (Y := Exn) (handler_clears page update)
    refine Prog.follows_up_bind tried fun outcome => ?_
    cases outcome <;> trivial

theorem callback_clears (site : Site) (request : CallbackRequest) :
    (handleCallback site request).FollowsUp clears := by
  refine Prog.follows_up_op rfl fun _ => Prog.follows_up_op rfl fun _ => ?_
  show (callbackEndpoint site request).FollowsUp clears
  unfold callbackEndpoint
  split
  · trivial
  · trivial
  · exact Prog.follows_up_interp with_pages_clears

theorem app_task_clears (site : Site) (task : AppTask) : (task.program site).FollowsUp clears := by
  cases task with
  | openPage page => exact Prog.follows_up_op rfl fun _ => trivial
  | disposePage page => exact Prog.follows_up_op rfl fun _ => trivial
  | edit page model => exact Prog.follows_up_op rfl fun _ => trivial
  | decide transactionId status => exact Prog.follows_up_op rfl fun _ => trivial
  | submit page =>
    refine Prog.follows_up_bind (execute_clears page ?_) fun _ => trivial
    refine Prog.follows_up_op rfl fun (model : AuthorizeFormModel) => ?_
    exact Prog.follows_up_bind (f := fun _ => .ret ())
      (start_clears site page.session model.phoneNumber _ _) fun _ => trivial
  | checkStatus page =>
    refine Prog.follows_up_bind (execute_clears page ?_) fun _ => trivial
    refine Prog.follows_up_op rfl fun (model : AuthorizeFormModel) => ?_
    exact Prog.follows_up_bind (f := fun _ => .ret ())
      (check_clears page.session model.phoneNumber) fun _ => trivial
  | refresh page =>
    refine Prog.follows_up_bind (Prog.follows_up_bind (clear_messages_clears page.session)
      fun _ => ?_) fun _ => trivial
    dsimp only
    split
    · exact Prog.follows_up_op rfl fun _ => render_clears page
    · exact render_clears page
  | callback request => exact Prog.follows_up_bind (callback_clears site request) fun _ => trivial

theorem with_accesses_clears {A : Type} {p : AppM A} (follows : p.FollowsUp clears) :
    (p.interp withAccesses).FollowsUp clears := by
  induction p with
  | ret a => trivial
  | raise x => trivial
  | op e next ih =>
    cases e with
    | inl call =>
      exact Prog.follows_up_bind (Prog.follows_up_of_uses (Prog.uses_on_left _ fun _ => rfl))
        fun a => ih a (follows a).2
    | inr e =>
      refine fun a => ⟨fun e' names => ?_, ih a (follows a).2⟩
      match e with
      | .inl _ => cases names
      | .inr e =>
        obtain ⟨clearing, is, rfl⟩ := Option.mem_map.mp names
        obtain ⟨later, goesOn⟩ := (follows a).1 (.inr (.inr clearing))
          (Option.mem_map.mpr ⟨clearing, is, rfl⟩)
        exact ⟨fun b => (later b).interp withAccesses,
          congrArg (fun p : AppM A => p.interp withAccesses) goesOn⟩

theorem task_clears (site : Site) (task : FacadeTask) :
    ((task.program site).interp withAccesses).FollowsUp clears := by
  refine with_accesses_clears ?_
  cases task with
  | app task => exact Prog.follows_up_bind (app_task_clears site task) fun _ => trivial
  | start session phoneNumber callbackUrl expirationMinute =>
    exact Prog.follows_up_bind (start_clears site session _ _ _) fun _ => trivial
  | check session phoneNumber =>
    exact Prog.follows_up_bind (check_clears session phoneNumber) fun _ => trivial

end Tasks

def OneMessage (session : ExampleAuthSession) : Prop :=
  session.infoMessage = none ∨ session.errorMessage = none

def JustAssigned (session : SessionId) (assignment : Assignment) (past : List (Performed FineSig)) :
    Prop := past.getLast? = some ⟨.inr (.inr (.assign session assignment)), ()⟩

/-- Somebody has set a message of the session and has yet to clear the other one. -/
def Halfway [DecidableEq ι] (session : SessionId) (tr : OuterTrace StoreSig ι) : Prop :=
  ∃ i message, JustAssigned session (.infoMessage (some message)) (own i tr) ∨
    JustAssigned session (.errorMessage (some message)) (own i tr)

section Runs
variable [DecidableEq ι] {rusAuth : Semantics rusAuthSig ς} {site : Site} {tasks : ι → FacadeTask}
  {s : App ς} {past xs : OuterTrace StoreSig ι} {p q : FacadePool ς ι} {session : SessionId} {i : ι}
  {assignment : Assignment}

theorem clears_next (run : Exec (fun _ => fineEffect rusAuth) (facadePool site tasks s) past p)
    (set : JustAssigned session assignment (own i past)) {e : HostOp}
    (names : (HostOp.assign session assignment).clears = some e) :
    ∃ next, p.task i = .op (.inr (.inr e)) next :=
  exec_follows_up run (task_clears site (tasks i)) set (Option.mem_map.mpr ⟨e, names, rfl⟩)

theorem one_message_step (run : Exec (fun _ => fineEffect rusAuth) (facadePool site tasks s) past p)
    {l : Label FineSig ι} (step : Step (fun _ => fineEffect rusAuth) p l q)
    (sofar : OneMessage (p.shared.2.2.sessions session) ∨ Halfway session past) :
    OneMessage (q.shared.2.2.sessions session) ∨ Halfway session (past ++ [l]) := by
  cases step with
  | @act i e next a s' ready did =>
    -- a step that leaves the messages alone is not the one that a task halfway stands at
    have quiet : (s'.2.2.sessions session).infoMessage =
          (p.shared.2.2.sessions session).infoMessage →
        (s'.2.2.sessions session).errorMessage =
          (p.shared.2.2.sessions session).errorMessage →
        e ≠ .inr (.inr (.assign session (.infoMessage none))) →
        e ≠ .inr (.inr (.assign session (.errorMessage none))) →
        OneMessage (s'.2.2.sessions session) ∨ Halfway session (past ++ [(i, ⟨e, a⟩)]) := by
      intro info error notInfo notError
      rcases sofar with one | ⟨j, message, set⟩
      · rw [OneMessage, info, error]
        exact Or.inl one
      · refine Or.inr ⟨j, message, ?_⟩
        by_cases mine : j = i
        · subst mine
          rcases set with set | set
          · obtain ⟨_, stands⟩ := clears_next run set rfl
            cases ready.symm.trans stands
            exact absurd rfl notError
          · obtain ⟨_, stands⟩ := clears_next run set rfl
            cases ready.symm.trans stands
            exact absurd rfl notInfo
        · rwa [own_snoc_other mine]
    rcases session_step did session with ⟨assignment, rfl, after⟩ | ⟨other, same⟩
    · have last : JustAssigned session assignment
          (own i (past ++ [(i, ⟨.inr (.inr (.assign session assignment)), a⟩)])) := by
        rw [JustAssigned, own_snoc_self, List.getLast?_concat]
        rfl
      match assignment with
      | .currentTransactionId id => exact quiet (by rw [after]; rfl) (by rw [after]; rfl) nofun nofun
      | .infoMessage none => exact Or.inl (Or.inl (by rw [after]; rfl))
      | .errorMessage none => exact Or.inl (Or.inr (by rw [after]; rfl))
      | .infoMessage (some message) => exact Or.inr ⟨i, message, Or.inl last⟩
      | .errorMessage (some message) => exact Or.inr ⟨i, message, Or.inr last⟩
    · exact quiet (by rw [same]) (by rw [same]) (other _) (other _)

/-- In every run a session has one message at most, except while somebody stands
    between setting one and clearing the other. -/
theorem one_message_run (run : Exec (fun _ => fineEffect rusAuth) (facadePool site tasks s) past p)
    (initially : OneMessage (s.2.2.sessions session)) :
    OneMessage (p.shared.2.2.sessions session) ∨ Halfway session past := by
  induction run with
  | nil => exact Or.inl initially
  | snoc before last ih => exact one_message_step before last ih

/-- No code of the circuit is between two assignments while the dispatcher renders. -/
theorem halfway_outside
    (run : Exec (fun _ => fineEffect rusAuth) (facadePool site tasks s) past p)
    (free : ∀ i, (tasks i).circuit = some session → AtRest (own i past) (p.task i))
    (exec : Exec (fun _ => fineEffect rusAuth) p xs q)
    (apart : ∀ l ∈ xs, (tasks l.1).circuit ≠ some session ∨ AtRusAuth l.2.1)
    (set : JustAssigned session assignment (own i (past ++ xs))) {e : HostOp}
    (names : (HostOp.assign session assignment).clears = some e)
    (moves : ¬ Waits (.inr (.inr e) : FineSig.Op)) : (tasks i).circuit ≠ some session := by
  intro inCircuit
  obtain ⟨next, stands⟩ := clears_next (exec_trans run exec) set names
  rw [JustAssigned, own_append] at set
  rcases List.eq_nil_or_concat (own i xs) with none | ⟨earlier, o, is⟩
  · have same : q.task i = p.task i := by
      have path := exec_path exec i
      rw [none] at path
      exact Prog.path_empty path
    rw [none, List.append_nil] at set
    have rest := free i inCircuit
    rw [← same, stands] at rest
    refine not_at_rest_op (fun empty => ?_) moves rest
    rw [empty] at set
    cases set
  · rw [is, List.concat_eq_append, ← List.append_assoc, List.getLast?_concat] at set
    cases set
    have member : (i, ⟨.inr (.inr (.assign session assignment)), ()⟩) ∈ xs :=
      mem_own.mp (by rw [is]; simp)
    rcases apart _ member with elsewhere | atRusAuth
    · exact elsewhere inCircuit
    · exact atRusAuth

/-- A callback has told the session of its transaction and is about to clear the error. -/
structure HalfwayThroughInfo (session : SessionId) (task : FacadeTask)
    (past : List (Performed FineSig)) (rest : Prog FineSig Exn (Option ExampleConfirmationFlow)) :
    Prop where
  callback : ∃ request, task = .app (.callback request)
  told : ∃ message, CallbackText message ∧ JustAssigned session (.infoMessage (some message)) past
  clears : ∃ next, rest = .op (.inr (.inr (.assign session (.errorMessage none)))) next

theorem decide_assigns_nothing {id : Str} {status : CallConfirmationStatus}
    (is : tasks i = .app (.decide id status))
    (run : Exec (fun _ => fineEffect rusAuth) (facadePool site tasks s) past p) :
    ¬ JustAssigned session assignment (own i past) := by
  intro set
  have path := exec_path run i
  have outside : ((facadePool site tasks s).task i).Uses AtRusAuth := by
    show (((tasks i).program site).interp withAccesses).Uses AtRusAuth
    rw [is]
    exact ⟨trivial, fun _ => trivial⟩
  exact Prog.path_uses outside path _ (List.mem_of_getLast? set)

theorem halfway_callback
    (run : Exec (fun _ => fineEffect rusAuth) (facadePool site tasks s) past p)
    (free : ∀ i, (tasks i).circuit = some session → AtRest (own i past) (p.task i))
    (exec : Exec (fun _ => fineEffect rusAuth) p xs q)
    (apart : ∀ l ∈ xs, (tasks l.1).circuit ≠ some session ∨ AtRusAuth l.2.1)
    (halfway : Halfway session (past ++ xs)) :
    ∃ i, HalfwayThroughInfo session (tasks i) (own i (past ++ xs)) (q.task i) := by
  have whole := exec_trans run exec
  have homely : ∀ {i assignment}, JustAssigned session assignment (own i (past ++ xs)) →
      StaysHome (tasks i).circuit (.inr (.inr (.assign session assignment)) : FineSig.Op) :=
    fun set => Prog.path_uses (task_stays_home site (tasks _)) (exec_path whole _) _
      (List.mem_of_getLast? set)
  obtain ⟨i, message, set | set⟩ := halfway
  · have outside := halfway_outside run free exec apart set rfl id
    obtain ⟨noCircuit, text⟩ := (homely set).resolve_left outside
    refine ⟨i, ?_, ⟨message, text, set⟩, clears_next whole set rfl⟩
    cases is : tasks i with
    | start _ _ _ _ => rw [is] at noCircuit; cases noCircuit
    | check _ _ => rw [is] at noCircuit; cases noCircuit
    | app task =>
      cases task with
      | callback request => exact ⟨request, rfl⟩
      | decide id status => exact absurd set (decide_assigns_nothing is whole)
      | _ => rw [is] at noCircuit; cases noCircuit
  · have outside := halfway_outside run free exec apart set rfl id
    exact ((homely set).resolve_left outside).2.elim

end Runs

section Layout
variable [DecidableEq ι] {rusAuth : Semantics rusAuthSig ς} {site : Site}
  {tasks : ι → FacadeTask} {s : App ς} {past : OuterTrace StoreSig ι} {p : FacadePool ς ι}
  {session : SessionId}

set_option maxRecDepth 10000 in
theorem callback_text_filled {message : Str} (text : CallbackText message) :
    isBlank message = false := by
  have starts : ∀ {u rest}, isWhiteSpace u = false → isBlank (u :: rest) = false := by
    intro u rest visible
    simp [isBlank, visible]
  rcases text with rfl | ⟨id, rfl⟩
  · have begins : updatedMessage = ('В' :: _ : List Char).flatMap charUnits := lit_of_list _
    rw [begins]
    exact starts (by decide)
  · have begins : lit "Получён callback по транзакции " =
        ('П' :: _ : List Char).flatMap charUnits := lit_of_list _
    rw [callbackMessage, begins]
    exact starts (by decide)

/-- What the layout shows. Both banners are there only if it was rendered while a
    callback was halfway; the information has its text, from before or of a callback;
    the error is the one from before, or empty if a callback cleared it between the two
    times it was asked for; the status line names the tracked transaction. -/
structure LayoutShows (rusAuth : Semantics rusAuthSig ς) (tasks : ι → FacadeTask)
    (past : OuterTrace StoreSig ι) (p : FacadePool ς ι) (session : SessionId)
    (tr : OuterTrace StoreSig ι) (view : LayoutView) : Prop where
  banners : view.info = none ∨ view.error = none ∨ ∃ xs m i, xs <+: tr ∧
    Exec (fun _ => fineEffect rusAuth) p xs m ∧
    HalfwayThroughInfo session (tasks i) (own i (past ++ xs)) (m.task i)
  info : ∀ shown, view.info = some shown → ∃ text, shown = some text ∧ isBlank text = false ∧
    ((p.shared.2.2.sessions session).infoMessage = some text ∨ CallbackText text)
  error : ∀ shown, view.error = some shown →
    isNullOrWhiteSpace (p.shared.2.2.sessions session).errorMessage = false ∧
      (shown = (p.shared.2.2.sessions session).errorMessage ∨ shown = none)
  status : match activeId p.shared session with
    | none => view.statusClass = lit "shell-status-anonymous" ∧
      view.statusText = lit "Ожидает запуска подтверждения"
    | some id => view.statusClass = lit "shell-status-authenticated" ∧
      view.statusText = lit "Активная транзакция: " ++ id

omit [DecidableEq ι] in
theorem status_inactive {tracked : Option Str}
    (current : tracked = (p.shared.2.2.sessions session).currentTransactionId)
    (inactive : activeId p.shared session = none) : isNullOrWhiteSpace tracked = true := by
  rw [activeId, ← current] at inactive
  cases tracked with
  | none => rfl
  | some id => simpa [isNullOrWhiteSpace] using inactive

omit [DecidableEq ι] in
theorem status_active {tracked : Option Str} {id : Str}
    (current : tracked = (p.shared.2.2.sessions session).currentTransactionId)
    (active : activeId p.shared session = some id) : isNullOrWhiteSpace tracked = false := by
  rw [activeId, ← current] at active
  obtain ⟨rfl, filled⟩ := Option.filter_eq_some_iff.mp active
  simpa [isNullOrWhiteSpace] using filled

theorem status_text_renders {t : App ς × OuterTrace StoreSig ι}
    (inv : Meanwhile rusAuth tasks p session t) :
    Renders rusAuth tasks p session (fun text _ => match activeId p.shared session with
        | none => text = lit "Ожидает запуска подтверждения"
        | some id => text = lit "Активная транзакция: " ++ id)
      (renderStatusText session) t := by
  refine returns_bind inv (current_id_renders t) fun tracked t₁ _ inv₁ current => ?_
  show Renders rusAuth tasks p session _ (if isNullOrWhiteSpace tracked then
      Prog.ret (lit "Ожидает запуска подтверждения")
    else (ofApp (currentTransactionId session)).bind fun named =>
      .ret (lit "Активная транзакция: " ++ named.getD [])) t₁
  cases active : activeId p.shared session with
  | none =>
    rw [if_pos (status_inactive current active)]
    exact returns_ret fun _ _ _ => rfl
  | some id =>
    rw [if_neg (by rw [status_active current active]; nofun)]
    refine returns_bind inv₁ (current_id_renders t₁) fun named t₂ _ _ again =>
      returns_ret fun _ _ _ => ?_
    rw [again, (Option.filter_eq_some_iff.mp active).1]
    rfl

omit [DecidableEq ι] in
theorem info_stays {s s' : App ς} (calm : Undisturbed session s s')
    (told : (s.2.2.sessions session).infoMessage ≠ none) :
    (s'.2.2.sessions session).infoMessage ≠ none := by
  rcases calm.info with same | ⟨message, _, is⟩
  · rwa [same]
  · rw [is]
    exact Option.some_ne_none message

/-- The information is read twice. Between the readings a callback's may take its place. -/
theorem info_renders (t : App ς × OuterTrace StoreSig ι) :
    Renders rusAuth tasks p session
      (fun info t' => ∀ shown, info = some shown →
        (∃ text, shown = some text ∧ isBlank text = false ∧
          ((p.shared.2.2.sessions session).infoMessage = some text ∨ CallbackText text)) ∧
        (t'.1.2.2.sessions session).infoMessage ≠ none)
      (shownMessage (look (.infoMessage session))) t := by
  refine returns_look fun t₁ (checked : Option Str) _ inv₁ (seen : checked = _) => ?_
  show Renders rusAuth tasks p session _ (if isNullOrWhiteSpace checked then Prog.ret none
    else (look (.infoMessage session)).bind fun shown => .ret (some shown)) t₁
  cases blank : isNullOrWhiteSpace checked with
  | true => exact returns_ret fun _ _ _ => nofun
  | false =>
    cases checked with
    | none => cases blank
    | some text =>
      have told : (t₁.1.2.2.sessions session).infoMessage ≠ none := by
        rw [← seen]
        exact Option.some_ne_none text
      refine returns_look fun t₂ (again : Option Str) on inv₂ (seen' : again = _) => ?_
      refine returns_ret fun t₃ later _ shown same => ?_
      cases same
      refine ⟨?_, info_stays later.calm (info_stays on.calm told)⟩
      -- the second reading finds what the first has found, or a callback's text
      rcases on.calm.info with unchanged | ⟨message, written, is⟩
      · refine ⟨text, (seen'.trans unchanged).trans seen.symm, blank, ?_⟩
        rcases inv₁.calm.info with before | ⟨message, written, is⟩
        · exact Or.inl (before.symm.trans seen.symm)
        · rw [Option.some.inj (seen.trans is)]
          exact Or.inr written
      · exact ⟨message, seen'.trans is, callback_text_filled written, Or.inr written⟩

/-- An error that is shown was set when it was asked for, so it was from the start. -/
theorem error_renders (t : App ς × OuterTrace StoreSig ι) :
    Renders rusAuth tasks p session
      (fun error t' => ∀ shown, error = some shown →
        (isNullOrWhiteSpace (p.shared.2.2.sessions session).errorMessage = false ∧
          (shown = (p.shared.2.2.sessions session).errorMessage ∨ shown = none)) ∧
        ∃ m, Meanwhile rusAuth tasks p session m ∧ GoesOn session t m ∧ m.2 <+: t'.2 ∧
          (m.1.2.2.sessions session).errorMessage ≠ none)
      (shownMessage (look (.errorMessage session))) t := by
  refine returns_look fun t₁ (checked : Option Str) on₁ inv₁ (seen : checked = _) => ?_
  show Renders rusAuth tasks p session _ (if isNullOrWhiteSpace checked then Prog.ret none
    else (look (.errorMessage session)).bind fun shown => .ret (some shown)) t₁
  cases blank : isNullOrWhiteSpace checked with
  | true => exact returns_ret fun _ _ _ => nofun
  | false =>
    have set : (t₁.1.2.2.sessions session).errorMessage ≠ none := by
      rw [← seen]
      rintro rfl
      cases blank
    have first : checked = (p.shared.2.2.sessions session).errorMessage :=
      seen.trans (inv₁.calm.error.resolve_right set)
    refine returns_look fun t₂ (again : Option Str) on₂ inv₂ (seen' : again = _) => ?_
    refine returns_ret fun t₃ later _ shown same => ?_
    cases same
    refine ⟨⟨by rwa [← first], ?_⟩, t₁, inv₁, on₁, on₂.log.trans later.log, set⟩
    rw [seen']
    exact inv₂.calm.error

theorem layout_renders
    (run : Exec (fun _ => fineEffect rusAuth) (facadePool site tasks s) past p)
    (initially : OneMessage (s.2.2.sessions session))
    (free : ∀ i, (tasks i).circuit = some session → AtRest (own i past) (p.task i)) :
    Renders rusAuth tasks p session
      (fun view t' => LayoutShows rusAuth tasks past p session t'.2 view) (renderLayout session)
      (p.shared, []) := by
  refine returns_bind meanwhile_start (current_id_renders _)
    fun tracked t₁ _ inv₁ (current : tracked = _) => ?_
  refine returns_bind inv₁ (status_text_renders inv₁) fun text t₂ _ inv₂ named => ?_
  refine returns_bind inv₂ (info_renders t₂) fun info t₃ _ inv₃ told => ?_
  refine returns_bind inv₃ (error_renders t₃) fun error t₄ _ _ failed => ?_
  refine returns_ret fun t₅ later _ => ⟨?_, fun shown is => (told shown is).1,
    fun shown is => (failed shown is).1, ?_⟩
  · cases info with
    | none => exact Or.inl rfl
    | some shown =>
      cases error with
      | none => exact Or.inr (Or.inl rfl)
      | some shown' =>
        obtain ⟨m, invM, on, log, set⟩ := (failed shown' rfl).2
        obtain ⟨q, exec, reached⟩ := invM.reached
        have both : ¬ OneMessage (q.shared.2.2.sessions session) := by
          rw [reached]
          rintro (none | none)
          · exact info_stays on.calm (told shown rfl).2 none
          · exact set none
        have halfway := (one_message_run (exec_trans run exec) initially).resolve_left both
        obtain ⟨i, callback⟩ := halfway_callback run free exec invM.apart halfway
        exact Or.inr (Or.inr ⟨m.2, q, i, log.trans later.log, exec, callback⟩)
  · cases active : activeId p.shared session with
    | none =>
      rw [active] at named
      exact ⟨by rw [if_pos (status_inactive current active)], named⟩
    | some id =>
      rw [active] at named
      exact ⟨by rw [if_neg (by rw [status_active current active]; nofun)], named⟩

/-- While the layout is rendered, whatever callbacks and other circuits do, it shows an
    information and an error together only if a callback stands between the two
    assignments of its SetInfo just then. -/
theorem layout_shows_messages
    (run : Exec (fun _ => fineEffect rusAuth) (facadePool site tasks s) past p)
    (initially : OneMessage (s.2.2.sessions session))
    (free : ∀ i, (tasks i).circuit = some session → AtRest (own i past) (p.task i))
    {rest : ViewM LayoutView} {tr : OuterTrace StoreSig ι} {q : FacadePool ς ι}
    (observed : Observed (fun _ => fineEffect rusAuth) (looking rusAuth) (Elsewhere tasks session) p
      (renderLayout session) tr q rest) :
    (∀ x, rest ≠ .raise x) ∧
      ∀ view, rest = .ret view → LayoutShows rusAuth tasks past p session tr view :=
  rendered run observed (layout_renders run initially free)

end Layout

/- The session has an error when a callback for another one is announced on its account
   page. The layout is rendered while the callback is between its two assignments. -/
namespace HalfwayCallback

inductive Party where
  | opening
  | checking
  | starting
  | webhook
  deriving DecidableEq

def tasks : Party → FacadeTask
  | .opening => .app (.openPage ⟨.account, 0, 1⟩)
  | .checking => .app (.checkStatus Sample.page)
  | .starting => .start 1 (lit "79001234567") [] 10
  | .webhook => .app (.callback (Sample.callback [55]))

def start : FacadePool Unit Party := facadePool Sample.site tasks (∅, (), .initial)

def checked : OuterTrace StoreSig Party × FacadePool Unit Party :=
  replay (Sample.answering Sample.confirming) start
    (.opening :: List.replicate 10 .checking ++ List.replicate 8 .starting)

theorem run : Exec (fun _ => fineEffect Sample.anyService) start checked.1 checked.2 :=
  replay_exec (fun _ => Sample.answering_any _) _ _

theorem free (i : Party) (here : (tasks i).circuit = some 0) :
    AtRest (own i checked.1) (checked.2.task i) := by
  cases i with
  | opening => decide
  | checking => decide
  | starting => cases here
  | webhook => cases here

/-- The callback has come to its first assignment when the messages are asked for. -/
def schedule : List (Option Party) :=
  List.replicate 2 none ++ List.replicate 8 (some .webhook) ++ List.replicate 4 none ++
    List.replicate 2 (some .webhook)

def after : OuterTrace StoreSig Party × FacadePool Unit Party × ViewM LayoutView :=
  watch (Sample.answering Sample.confirming) (Sample.sees Sample.confirming) checked.2
    (renderLayout 0) schedule

theorem observed : Observed (fun _ => fineEffect Sample.anyService) (looking Sample.anyService)
    (Elsewhere tasks 0) checked.2 (renderLayout 0) after.1 after.2.1 after.2.2 := by
  refine watch_observed (fun _ => Sample.answering_any _) (Sample.sees_right _ _) .start
    (layout_reads 0) schedule ?_
  intro i member m o
  cases i with
  | webhook => exact Or.inl nofun
  | _ => simp [schedule] at member

end HalfwayCallback

theorem two_banners_shown :
    ∃ view, HalfwayCallback.after.2.2 = .ret view ∧ view.info.isSome ∧ view.error.isSome ∧
      LayoutShows Sample.anyService HalfwayCallback.tasks HalfwayCallback.checked.1
        HalfwayCallback.checked.2 0 HalfwayCallback.after.1 view := by
  have shows := layout_shows_messages HalfwayCallback.run (Or.inl rfl) HalfwayCallback.free
    HalfwayCallback.observed
  have both : ((Sample.returned HalfwayCallback.after.2.2).map fun view =>
      view.info.isSome && view.error.isSome) = some true := by decide +kernel
  obtain ⟨view, ended, two⟩ := Option.map_eq_some_iff.mp both
  rw [Bool.and_eq_true] at two
  exact ⟨view, Sample.returned_ret ended, two.1, two.2, shows.2 view (Sample.returned_ret ended)⟩

end RusAuthExample
