import RusAuthExample.AnsweredCallbacks
import RusAuthExample.TrackedTransactions

/-!
What the messages of a session rest on. An error that is shown is the message of
an exception that an action of the session has run into; an information goes
back to an answered start, an answered check, or a callback that was recorded.
-/
namespace RusAuthExample
open Utf16Text OperationPrograms InterleavedRuns KeyedMemory

variable {ς ι : Type}

abbrev Did (past : List (Performed FineSig)) (e : FineSig.Op) (a : FineSig.Answer e) : Prop :=
  (⟨e, a⟩ : Performed FineSig) ∈ past

def ActsOn : FacadeTask → Page → Prop
  | .app (.submit page), page' => page' = page
  | .app (.checkStatus page), page' => page' = page
  | _, _ => False

/-- The exceptions an action of the session can run into, each with its cause. -/
inductive Raised (session : SessionId) (past : List (Performed FineSig)) : Exn → Prop where
  | refused {request : RusAuthCallToConfirmRequest} {x : Exn}
      (replied : Did past (.inr (.inl (.callToConfirm request))) (Except.error x)) :
      Raised session past x
  | unnamed {request : RusAuthCallToConfirmRequest} {response : RusAuthCallToConfirmResponse}
      (unnamed : response.transactionId = none)
      (replied : Did past (.inr (.inl (.callToConfirm request))) (Except.ok response)) :
      Raised session past .argumentNull
  | unchecked {request : RusAuthCheckConfirmationRequest} {x : Exn}
      (tracked : TrackedBy past session request.transactionId)
      (replied : Did past (.inr (.inl (.checkConfirmation request))) (Except.error x)) :
      Raised session past x
  | untracked (read : Did past (.inr (.inr (.currentTransactionId session))) none) :
      Raised session past (.invalidOperation noTransactionMessage)

/-- The task is a request to the callback endpoint that was let through and has
    recorded the callback for the transaction it names. -/
def RecordedCallback (site : Site) (task : FacadeTask) (past : List (Performed FineSig))
    (id : Str) : Prop :=
  ∃ request body flow, task = .app (.callback request) ∧ Accepted site request body ∧
    body.transactionId = some id ∧ Did past (.inl (.inl (.put id flow))) () ∧
    flow.status = .success ∧ flow.callbackReceivedOn ≠ none

/-- The informations a session can be given, each with what it reports. -/
inductive Announces (site : Site) (task : FacadeTask) (session : SessionId)
    (past : List (Performed FineSig)) : Str → Prop where
  | started {request : RusAuthCallToConfirmRequest} {response : RusAuthCallToConfirmResponse}
      {id : Str} {flow : ExampleConfirmationFlow} (here : task.circuit = some session)
      (names : response.transactionId = some id)
      (replied : Did past (.inr (.inl (.callToConfirm request))) (Except.ok response))
      (wrote : Did past (.inl (.inl (.put id flow))) ())
      (tracks : Did past (.inr (.inr (.assign session (.currentTransactionId id)))) ()) :
      Announces site task session past startedMessage
  | checked {request : RusAuthCheckConfirmationRequest} {response : RusCheckConfirmationResponse}
      {flow : ExampleConfirmationFlow} (here : task.circuit = some session)
      (tracked : TrackedBy past session request.transactionId)
      (replied : Did past (.inr (.inl (.checkConfirmation request))) (Except.ok response))
      (wrote : Did past (.inl (.inl (.put request.transactionId flow))) ())
      (status : flow.status = response.status) :
      Announces site task session past (statusMessage response.status)
  | updated {id : Str} (recorded : RecordedCallback site task past id)
      (tracked : TrackedBy past session id) : Announces site task session past updatedMessage
  | listed {id : Str} (recorded : RecordedCallback site task past id) :
      Announces site task session past (callbackMessage id)

structure SoundReads (task : FacadeTask) (past : List (Performed FineSig)) : Prop where
  named : ∀ id flow, Found past id flow → flow.transactionId = id
  present : task.circuit ≠ none → ∀ id, ¬ Did past (.inl (.inl (.get id))) none

/-- What must have happened before a message is set, if the reads were sound. -/
def Truthful (site : Site) (task : FacadeTask) (past : List (Performed FineSig)) :
    FineSig.Op → Prop
  | .inr (.inr (.assign session (.infoMessage (some message)))) =>
    SoundReads task past → Announces site task session past message
  | .inr (.inr (.assign session (.errorMessage (some message)))) =>
    SoundReads task past → ∃ page x, ActsOn task page ∧ page.session = session ∧
      Raised session past x ∧ message = x.message
  | .inr (.inr (.setLocalError page (some message))) =>
    SoundReads task past → ActsOn task page ∧
      ∃ x, Raised page.session past x ∧ message = x.message
  | _ => True

theorem raised_later {session : SessionId} {past done : List (Performed FineSig)} {x : Exn}
    (raised : Raised session past x) (later : ∀ o ∈ past, o ∈ done) : Raised session done x := by
  cases raised with
  | refused replied => exact .refused (later _ replied)
  | unnamed unnamed replied => exact .unnamed unnamed (later _ replied)
  | unchecked tracked replied => exact .unchecked (later _ tracked) (later _ replied)
  | untracked read => exact .untracked (later _ read)

theorem recorded_later {site : Site} {task : FacadeTask} {past done : List (Performed FineSig)}
    {id : Str} (recorded : RecordedCallback site task past id) (later : ∀ o ∈ past, o ∈ done) :
    RecordedCallback site task done id := by
  obtain ⟨request, body, flow, is, accepted, names, wrote, success, received⟩ := recorded
  exact ⟨request, body, flow, is, accepted, names, later _ wrote, success, received⟩

theorem announces_later {site : Site} {task : FacadeTask} {session : SessionId}
    {past done : List (Performed FineSig)} {message : Str}
    (announces : Announces site task session past message) (later : ∀ o ∈ past, o ∈ done) :
    Announces site task session done message := by
  cases announces with
  | started here names replied wrote tracks =>
    exact .started here names (later _ replied) (later _ wrote) (later _ tracks)
  | checked here tracked replied wrote status =>
    exact .checked here (later _ tracked) (later _ replied) (later _ wrote) status
  | updated recorded tracked => exact .updated (recorded_later recorded later) (later _ tracked)
  | listed recorded => exact .listed (recorded_later recorded later)

theorem sound_before {task : FacadeTask} {past done : List (Performed FineSig)}
    (sound : SoundReads task done) (later : ∀ o ∈ past, o ∈ done) : SoundReads task past where
  named id flow found := sound.named id flow (later _ found)
  present circuit id missing := sound.present circuit id (later _ missing)

def Silent (e : FineSig.Op) : Prop := ∀ site task past, Truthful site task past e

theorem shown_silent (session : SessionId) :
    ((shownTransactionId session).interp withAccesses).Uses Silent := by
  let looks : AppSig.Op → Prop := fun e =>
    e = .inr (.inr (.currentTransactionId session)) ∨ ∃ id, e = .inl (.get id)
  have uses : (shownTransactionId session).Uses looks :=
    shown_uses session (Or.inl rfl) fun id => Or.inr ⟨id, rfl⟩
  apply Prog.uses_interp uses
  rintro e (rfl | ⟨id, rfl⟩)
  · exact ⟨fun _ _ _ => trivial, fun _ => trivial⟩
  · exact ⟨fun _ _ _ => trivial, fun _ => trivial⟩

theorem shown_truthful {site : Site} {task : FacadeTask} (session : SessionId)
    (past : List (Performed FineSig)) :
    ((shownTransactionId session).interp withAccesses).Follows (Truthful site task)
      (fun r done => past <+: done ∧ ∃ looks shown, r = .ok shown ∧ done = past ++ looks ∧
        redrawn looks = [] ∧ LooksShow session looks shown) past := by
  apply Prog.follows_with _ (shown_does session past)
  exact Prog.follows_of_uses (shown_silent session) (fun past e silent => silent site task past) past

section Calls
variable {site : Site} {task : FacadeTask} {session : SessionId}

abbrev Owns {A : Type} (site : Site) (task : FacadeTask) (session : SessionId) (p : AppM A)
    (past : List (Performed FineSig)) : Prop :=
  (p.interp withAccesses).Follows (Truthful site task)
    (fun r done => ∀ x, r = .error x → SoundReads task done → Raised session done x) past

theorem start_owns (phoneNumber callbackUrl : Str) (expirationMinute : Int)
    (here : task.circuit = some session) (past : List (Performed FineSig)) :
    Owns site task session
      (startConfirmationAsync site session phoneNumber callbackUrl expirationMinute) past := by
  unfold startConfirmationAsync
  generalize callToConfirmRequest site phoneNumber callbackUrl expirationMinute = request
  refine Prog.follows_op trivial fun (reply : Except Exn RusAuthCallToConfirmResponse) => ?_
  refine Prog.follows_op trivial fun (() : Unit) => ?_
  let asked := past ++ [⟨.inr (.inl (.callToConfirm request)), reply⟩] ++
    [⟨.inr (.inr .arrive), ()⟩]
  have replied : Did asked (.inr (.inl (.callToConfirm request))) reply := by simp [asked]
  rcases reply with x | ⟨_ | id, number⟩
  · intro y failed _
    cases failed
    exact .refused replied
  · refine Prog.follows_op trivial fun (t : DateTime) => ?_
    intro y failed _
    cases failed
    exact .unnamed rfl (List.mem_append_left _ replied)
  · refine Prog.follows_op trivial fun (t : DateTime) => Prog.follows_op trivial
      fun (() : Unit) => Prog.follows_op trivial fun (() : Unit) => Prog.follows_op trivial
        fun (() : Unit) => Prog.follows_op (fun _ => ?_) fun _ => Prog.follows_op trivial
          fun _ => nofun
    let flow := newFlow id ⟨some id, number⟩ request t
    let wrote := asked ++ [⟨.inl (.inr ()), t⟩] ++ [⟨.inl (.inl (.put id flow)), ()⟩]
    let tracked := wrote ++ [⟨.inr (.inr (.assign session (.currentTransactionId id))), ()⟩] ++
      [⟨.inr (.inr (.assign session (.errorMessage none))), ()⟩]
    have answered : Did tracked (.inr (.inl (.callToConfirm request)))
        (Except.ok (⟨some id, number⟩ : RusAuthCallToConfirmResponse)) := by
      simp [tracked, wrote, asked]
    have put : Did tracked (.inl (.inl (.put id flow))) () := by simp [tracked, wrote]
    exact .started here rfl answered put
      (List.mem_append_left _ (List.mem_append_right _ List.mem_cons_self))

theorem mark_owns {request : RusAuthCheckConfirmationRequest} {status : CallConfirmationStatus}
    {past : List (Performed FineSig)} (here : task.circuit = some session)
    (tracked : TrackedBy past session request.transactionId)
    (replied : Did past (.inr (.inl (.checkConfirmation request)))
      (Except.ok (⟨status⟩ : RusCheckConfirmationResponse))) :
    Owns site task session ((callStore (.markManualStatus request.transactionId status)).bind
      (announceStatus session status)) past := by
  have announces : ∀ {done flow}, (∀ o ∈ past, o ∈ done) → flow.status = status →
      (Prog.op (S := FineSig) (.inl (.inl (.put request.transactionId flow))) fun _ =>
        ((setInfo session (statusMessage status)).interp withAccesses).bind fun _ =>
          .ret flow).Follows (Truthful site task)
        (fun r done => ∀ x, r = .error x → SoundReads task done → Raised session done x) done := by
    intro done flow later is
    refine Prog.follows_op trivial fun (() : Unit) => Prog.follows_op (fun _ => ?_)
      fun _ => Prog.follows_op trivial fun _ => nofun
    have put : Did (done ++ [⟨.inl (.inl (.put request.transactionId flow)), ()⟩])
        (.inl (.inl (.put request.transactionId flow))) () := by simp
    exact .checked here (List.mem_append_left _ (later _ tracked))
      (List.mem_append_left _ (later _ replied)) put is
  refine Prog.follows_op trivial fun (found : Option ExampleConfirmationFlow) => ?_
  cases found with
  | none =>
    intro x failed sound
    have missing : Did (past ++ [⟨.inl (.inl (.get request.transactionId)), none⟩])
        (.inl (.inl (.get request.transactionId))) none := by simp
    exact absurd missing (sound.present (by simp [here]) _)
  | some existing =>
    cases status with
    | unhandled =>
      refine Prog.follows_op trivial fun (t : DateTime) => ?_
      apply announces _ rfl
      intro o member
      simp [member]
    | _ =>
      refine Prog.follows_op trivial fun (c : DateTime) =>
        Prog.follows_op trivial fun (t : DateTime) => ?_
      apply announces _ rfl
      intro o member
      simp [member]

theorem check_owns (phoneNumber : Str) (here : task.circuit = some session)
    (past : List (Performed FineSig)) :
    Owns site task session (checkCurrentConfirmationAsync session phoneNumber) past := by
  rw [check_eq]
  refine Prog.follows_op trivial fun (tracked : Option Str) => ?_
  cases tracked with
  | none =>
    intro x failed _
    cases failed
    exact .untracked (by simp)
  | some id =>
    refine Prog.follows_op trivial fun (reply : Except Exn RusCheckConfirmationResponse) =>
      Prog.follows_op trivial fun (() : Unit) => ?_
    let request : RusAuthCheckConfirmationRequest := ⟨phoneNumber, id⟩
    let arrived := past ++ [⟨.inr (.inr (.currentTransactionId session)), some id⟩] ++
      [⟨.inr (.inl (.checkConfirmation request)), reply⟩] ++ [⟨.inr (.inr .arrive), ()⟩]
    have read : TrackedBy arrived session id := by simp [TrackedBy, arrived]
    have replied : Did arrived (.inr (.inl (.checkConfirmation request))) reply := by
      simp [arrived]
    cases reply with
    | error x =>
      intro y failed _
      cases failed
      exact .unchecked read replied
    | ok response => exact mark_owns here read replied

theorem owns_unit {A : Type} {p : AppM A} {past : List (Performed FineSig)}
    (owns : Owns site task session p past) :
    Owns site task session (p.bind fun _ => .ret ()) past := by
  refine Prog.follows_interp_bind owns ?_ fun _ _ caused x failed => ?_
  · intro _ _ _ x failed
    cases failed
  · cases failed
    exact caused _ rfl

end Calls

section Pages
variable {site : Site} {task : FacadeTask}

theorem execute_truthful (page : Page) {action : AppM Unit} (on : ActsOn task page)
    (acts : ∀ past, Owns site task page.session action past) :
    ((executeAsync page action).interp withAccesses).Follows (Truthful site task)
      (fun _ _ => True) [] := by
  let closes : Except Exn Unit → AppM Unit := fun outcome =>
    (setIsBusy page false).bind fun _ => Prog.ofExcept outcome
  rw [execute_eq]
  refine Prog.follows_op trivial fun _ => Prog.follows_op trivial fun _ =>
    Prog.follows_op trivial fun _ => Prog.follows_op trivial fun _ => ?_
  show (((attempted page action).attempt.bind closes).interp withAccesses).Follows _ _ _
  rw [Prog.interp_bind, Prog.interp_attempt with_accesses_total, attempted,
    Prog.interp_recover with_accesses_total]
  refine Prog.follows_bind (Q := fun _ _ => True) (Prog.follows_attempt (Q := fun _ _ => True)
    (Prog.follows_recover (Q := fun r done => ∀ x, r = .error x → SoundReads task done →
      Raised page.session done x) ?_ (fun _ _ _ => trivial) ?_) fun _ _ _ => trivial) ?_
    fun _ _ _ => trivial
  · refine Prog.follows_interp_bind (acts _) ?_ fun _ _ caused => caused
    intro _ done _
    refine Prog.follows_interp_bind (shown_truthful page.session done) ?_ ?_
    · intro _ _ _ x failed
      cases failed
    · intro x _ ended
      obtain ⟨_, _, failed, _⟩ := ended.2
      cases failed
  · intro ex done caused
    let told := done ++
      [⟨.inr (.inr (.assign page.session (.errorMessage (some ex.message)))), ()⟩] ++
        [⟨.inr (.inr (.assign page.session (.infoMessage none))), ()⟩]
    have later : ∀ o ∈ done, o ∈ told := fun o member => by simp [told, member]
    refine Prog.follows_op (fun sound => ⟨page, ex, on, rfl, caused ex rfl sound, rfl⟩)
      fun _ => Prog.follows_op trivial fun _ => Prog.follows_op
        (fun sound => ⟨on, ex, ?_, rfl⟩) fun _ => trivial
    exact raised_later (caused ex rfl (sound_before sound later)) later
  · intro outcome done _
    refine Prog.follows_op trivial fun _ => ?_
    cases outcome <;> trivial

theorem tracked_of_looks {session : SessionId} {past looks : List (Performed FineSig)} {id : Str}
    (shows : LooksShow session looks (some id)) (sound : SoundReads task (past ++ looks)) :
    TrackedBy (past ++ looks) session id := by
  rcases shows with now | ⟨id', flow, looked, found, same⟩
  · exact List.mem_append_right _ now
  · have named := sound.named id' flow (List.mem_append_right _ found)
    rw [Option.some.inj same, named]
    exact List.mem_append_right _ looked

/-- A handler announces the update it is given, at an authorize page if it is the
    one of the transaction it shows. -/
theorem handler_truthful (page : Page) (update : ExampleConfirmationUpdate)
    (past : List (Performed FineSig))
    (recorded : ∀ done, past <+: done → SoundReads task done →
      RecordedCallback site task done update.transactionId) :
    ((onConfirmationUpdatedAsync page update).interp withAccesses).Follows (Truthful site task)
      (fun _ done => past <+: done) past := by
  obtain ⟨kind, session, number⟩ := page
  cases kind with
  | account =>
    refine Prog.follows_op (fun sound => .listed (recorded past (List.prefix_refl _) sound))
      fun _ => Prog.follows_op trivial fun _ => Prog.follows_op trivial
        fun (outcome : Except Exn Unit) => ?_
    simp only [List.append_assoc]
    cases outcome <;> exact List.prefix_append _ _
  | authorize =>
    refine Prog.follows_interp_bind (shown_truthful session past) ?_ fun _ _ ended => ended.1
    rintro shown done ⟨later, looks, _, ⟨⟩, rfl, _, shows⟩
    by_cases same : some update.transactionId = shown
    · subst same
      show ((if some update.transactionId ≠ some update.transactionId then Prog.ret () else _).interp
        withAccesses).Follows _ _ _
      rw [if_neg (not_not_intro rfl)]
      refine Prog.follows_op (fun sound => ?_) fun _ => Prog.follows_op trivial fun _ =>
        Prog.follows_op trivial fun _ => Prog.follows_op trivial
          fun (outcome : Except Exn Unit) => ?_
      · exact .updated (recorded _ later sound) (tracked_of_looks shows sound)
      · simp only [List.append_assoc]
        cases outcome <;> exact List.prefix_append _ _
    · show ((if some update.transactionId ≠ shown then Prog.ret () else _).interp
        withAccesses).Follows _ _ _
      rw [if_pos same]
      exact later

theorem deliver_truthful (update : ExampleConfirmationUpdate) (pages : List Page)
    (past : List (Performed FineSig))
    (recorded : ∀ done, past <+: done → SoundReads task done →
      RecordedCallback site task done update.transactionId) :
    ((deliverUpdate update .none pages).interp withAccesses).Follows (Truthful site task)
      (fun _ done => past <+: done) past := by
  induction pages generalizing past with
  | nil => exact List.prefix_refl past
  | cons page rest ih =>
    show (((invokePage page update).bind fun outcome =>
      (((Prog.ofExcept outcome.result).bind fun _ =>
        deliver update .none rest).onRight (S := callSig)).interp withPages).interp
          withAccesses).Follows _ _ _
    have called : ((invokePage page update).interp withAccesses).Follows (Truthful site task)
        (fun _ done => past <+: done) past := by
      show ((((onConfirmationUpdatedAsync page update).attempt).bind _).interp withAccesses).Follows
        _ _ _
      rw [Prog.interp_bind, Prog.interp_attempt with_accesses_total]
      apply Prog.follows_bind (Q := fun _ done => past <+: done)
      · exact Prog.follows_attempt (handler_truthful page update past recorded)
          fun _ _ later => later
      · intro ended done later
        cases ended <;> exact later
      · exact fun _ _ later => later
    refine Prog.follows_interp_bind called ?_ fun _ _ later => later
    intro outcome done later
    cases outcome with
    | completes =>
      refine Prog.follows_weaken (ih done fun done' more => recorded done' (later.trans more)) ?_
      exact fun _ _ more => later.trans more
    | throwsAtCall x => exact later
    | faultsTask x => exact later

theorem confirmation_truthful {request : CallbackRequest} {body : RusAuthConfirmationWebHookRequest}
    (is : task = .app (.callback request)) (accepted : Accepted site request body)
    (past : List (Performed FineSig)) :
    (((confirmation body).interp withPages).interp withAccesses).Follows (Truthful site task)
      (fun _ _ => True) past := by
  obtain ⟨id, number⟩ := body
  cases id with
  | none => trivial
  | some id =>
    refine Prog.follows_op trivial fun (found : Option ExampleConfirmationFlow) => ?_
    cases found with
    | none => trivial
    | some existing =>
      refine Prog.follows_op trivial fun (c : DateTime) => Prog.follows_op trivial
        fun (t : DateTime) => Prog.follows_op trivial fun (() : Unit) => ?_
      let flow := callbackUpdate existing c t
      let read := past ++ [⟨.inl (.inl (.get id)), some existing⟩]
      let wrote := read ++ [⟨.inl (.inr ()), c⟩] ++ [⟨.inl (.inr ()), t⟩] ++
        [⟨.inl (.inl (.put id flow)), ()⟩]
      have recorded : ∀ done, wrote <+: done → SoundReads task done →
          RecordedCallback site task done (updateOf flow).transactionId := by
        intro done later sound
        have found : Found done id existing := later.subset (by simp [wrote, read])
        have put : Did done (.inl (.inl (.put id flow))) () := later.subset (by simp [wrote])
        have named : (updateOf flow).transactionId = id := sound.named id existing found
        rw [named]
        exact ⟨request, ⟨some id, number⟩, flow, is, accepted, rfl, put, rfl, nofun⟩
      show (Prog.interp withAccesses (Prog.interp withPages
        ((publishAsync (updateOf flow) .none).onRight.bind fun _ =>
          .ret ActionResult.ok))).Follows _ _ _
      rw [Prog.interp_bind, Prog.interp_bind]
      refine Prog.follows_bind (Q := fun _ _ => True) ?_ (fun _ _ _ => trivial) fun _ _ _ => trivial
      refine Prog.follows_op trivial fun (pages : List Page) => ?_
      have delivered := deliver_truthful (updateOf flow) pages
        (wrote ++ [⟨.inr (.inr .handlers), pages⟩])
        fun done later => recorded done ((List.prefix_append _ _).trans later)
      cases pages with
      | nil => trivial
      | cons page rest => exact Prog.follows_weaken delivered fun _ _ _ => trivial

/-- Programs that keep the rule whatever they find may stand one after the other. -/
theorem truthful_bind {A B : Type} {p : AppM A} {f : A → AppM B} {past : List (Performed FineSig)}
    (first : (p.interp withAccesses).Follows (Truthful site task) (fun _ _ => True) past)
    (rest : ∀ a done, ((f a).interp withAccesses).Follows (Truthful site task)
      (fun _ _ => True) done) :
    ((p.bind f).interp withAccesses).Follows (Truthful site task) (fun _ _ => True) past :=
  Prog.follows_interp_bind first (fun a done _ => rest a done) fun _ _ _ => trivial

theorem refresh_truthful (page : Page) (past : List (Performed FineSig)) :
    ((refreshAsync page).interp withAccesses).Follows (Truthful site task)
      (fun _ _ => True) past := by
  obtain ⟨kind, session, number⟩ := page
  cases kind with
  | account =>
    refine Prog.follows_op trivial fun _ => Prog.follows_op trivial fun _ =>
      Prog.follows_op trivial fun (outcome : Except Exn Unit) => ?_
    cases outcome <;> trivial
  | authorize =>
    refine Prog.follows_op trivial fun _ => Prog.follows_op trivial fun _ =>
      Prog.follows_op trivial fun _ => Prog.follows_op trivial
        fun (outcome : Except Exn Unit) => ?_
    cases outcome <;> trivial

theorem callback_truthful {request : CallbackRequest} (is : task = .app (.callback request))
    (past : List (Performed FineSig)) :
    ((handleCallback site request).interp withAccesses).Follows (Truthful site task)
      (fun _ _ => True) past := by
  refine Prog.follows_op trivial fun _ => Prog.follows_op trivial fun _ => ?_
  show ((callbackEndpoint site request).interp withAccesses).Follows _ _ _
  rw [callbackEndpoint]
  split
  · trivial
  · trivial
  · rename_i body passes binds
    exact confirmation_truthful is ⟨passes, binds⟩ _

theorem task_truthful (site : Site) (task : FacadeTask) :
    ((task.program site).interp withAccesses).Obeys (Truthful site task) [] := by
  apply Prog.obeys_of_follows (Q := fun _ _ => True)
  cases task with
  | start session phoneNumber callbackUrl expirationMinute =>
    refine truthful_bind ?_ fun _ _ => trivial
    exact Prog.follows_weaken (start_owns _ _ _ rfl []) fun _ _ _ => trivial
  | check session phoneNumber =>
    refine truthful_bind ?_ fun _ _ => trivial
    exact Prog.follows_weaken (check_owns _ rfl []) fun _ _ _ => trivial
  | app task =>
    refine truthful_bind ?_ fun _ _ => trivial
    cases task with
    | openPage page => exact Prog.follows_op trivial fun _ => trivial
    | disposePage page => exact Prog.follows_op trivial fun _ => trivial
    | edit page model => exact Prog.follows_op trivial fun _ => trivial
    | decide id status => exact Prog.follows_op trivial fun _ => trivial
    | submit page =>
      refine truthful_bind (execute_truthful page rfl fun past => ?_) fun _ _ => trivial
      refine Prog.follows_op trivial fun (model : AuthorizeFormModel) => ?_
      have starts : Owns site (.app (.submit page)) page.session
          (startConfirmationAsync site page.session model.phoneNumber
            (buildCallbackUrl site (site.baseUri page.session)) model.expirationMinute)
          (past ++ [⟨.inr (.inr (.model page)), model⟩]) := start_owns _ _ _ rfl _
      exact owns_unit starts
    | checkStatus page =>
      refine truthful_bind (execute_truthful page rfl fun past => ?_) fun _ _ => trivial
      refine Prog.follows_op trivial fun (model : AuthorizeFormModel) => ?_
      have checks : Owns site (.app (.checkStatus page)) page.session
          (checkCurrentConfirmationAsync page.session model.phoneNumber)
          (past ++ [⟨.inr (.inr (.model page)), model⟩]) := check_owns _ rfl _
      exact owns_unit checks
    | refresh page => exact truthful_bind (refresh_truthful page []) fun _ _ => trivial
    | callback request => exact truthful_bind (callback_truthful rfl []) fun _ _ => trivial

end Pages

structure MessagesTrue [DecidableEq ι] (site : Site) (tasks : ι → FacadeTask) (s : App ς)
    (tr : OuterTrace StoreSig ι) : Prop where
  error : ∀ session message, (s.2.2.sessions session).errorMessage = some message →
    ∃ i page x, ActsOn (tasks i) page ∧ page.session = session ∧
      Raised session (own i tr) x ∧ message = x.message
  localError : ∀ page message, (s.2.2.pages page).localError = some message →
    ∃ i x, ActsOn (tasks i) page ∧ Raised page.session (own i tr) x ∧ message = x.message
  info : ∀ session message, (s.2.2.sessions session).infoMessage = some message →
    ∃ i, Announces site (tasks i) session (own i tr) message

section Runs
variable [DecidableEq ι] {rusAuth : Semantics rusAuthSig ς} {site : Site} {tasks : ι → FacadeTask}
  {s s' : App ς} {service : ς} {circuits : Circuits} {tr : OuterTrace StoreSig ι}
  {q : FacadePool ς ι} {i : ι} {e : FineSig.Op} {a : FineSig.Answer e}

theorem sound_of_keys (keys : KeepsKeys (fun i => (tasks i).circuit) s tr) (i : ι) :
    SoundReads (tasks i) (own i tr) where
  named id flow found := (keys.found i id flow (mem_own.mp found)).1
  present circuit id missing := keys.sure i id circuit (mem_own.mp missing)

theorem own_later (i j : ι) (o : Performed FineSig) :
    ∀ o' ∈ own j tr, o' ∈ own j (tr ++ [(i, o)]) := by
  intro o' member
  rw [own_append]
  exact List.mem_append_left _ member

theorem error_step (sofar : MessagesTrue site tasks s tr) (sound : SoundReads (tasks i) (own i tr))
    (truthful : Truthful site (tasks i) (own i tr) e) (did : fineEffect rusAuth s e a s')
    {session : SessionId} {message : Str}
    (shown : (s'.2.2.sessions session).errorMessage = some message) :
    ∃ j page x, ActsOn (tasks j) page ∧ page.session = session ∧
      Raised session (own j (tr ++ [(i, ⟨e, a⟩)])) x ∧ message = x.message := by
  have kept : (s.2.2.sessions session).errorMessage = some message →
      ∃ j page x, ActsOn (tasks j) page ∧ page.session = session ∧
        Raised session (own j (tr ++ [(i, ⟨e, a⟩)])) x ∧ message = x.message := by
    intro before
    obtain ⟨j, page, x, on, here, raised, is⟩ := sofar.error session message before
    exact ⟨j, page, x, on, here, raised_later raised (own_later i j _), is⟩
  rcases session_step did session with ⟨assignment, rfl, after⟩ | ⟨_, same⟩
  · rw [after] at shown
    cases assignment with
    | currentTransactionId id => exact kept shown
    | infoMessage text => exact kept shown
    | errorMessage text =>
      subst shown
      obtain ⟨page, x, on, here, raised, is⟩ := truthful sound
      exact ⟨i, page, x, on, here, raised_later raised (own_later i i _), is⟩
  · rw [same] at shown
    exact kept shown

theorem local_error_step (sofar : MessagesTrue site tasks s tr)
    (sound : SoundReads (tasks i) (own i tr))
    (truthful : Truthful site (tasks i) (own i tr) e) (did : fineEffect rusAuth s e a s')
    {page : Page} {message : Str} (shown : (s'.2.2.pages page).localError = some message) :
    ∃ j x, ActsOn (tasks j) page ∧
      Raised page.session (own j (tr ++ [(i, ⟨e, a⟩)])) x ∧ message = x.message := by
  have kept : (s.2.2.pages page).localError = some message →
      ∃ j x, ActsOn (tasks j) page ∧
        Raised page.session (own j (tr ++ [(i, ⟨e, a⟩)])) x ∧ message = x.message := by
    intro before
    obtain ⟨j, x, on, raised, is⟩ := sofar.localError page message before
    exact ⟨j, x, on, raised_later raised (own_later i j _), is⟩
  rcases page_step did page with ⟨_, _, after⟩ | ⟨_, _, after⟩ | ⟨localError, rfl, after⟩ | same
  · rw [after] at shown
    exact kept shown
  · rw [after] at shown
    exact kept shown
  · rw [after] at shown
    cases shown
    obtain ⟨on, x, raised, is⟩ := truthful sound
    exact ⟨i, x, on, raised_later raised (own_later i i _), is⟩
  · rw [same] at shown
    exact kept shown

theorem info_step (sofar : MessagesTrue site tasks s tr) (sound : SoundReads (tasks i) (own i tr))
    (truthful : Truthful site (tasks i) (own i tr) e) (did : fineEffect rusAuth s e a s')
    {session : SessionId} {message : Str}
    (shown : (s'.2.2.sessions session).infoMessage = some message) :
    ∃ j, Announces site (tasks j) session (own j (tr ++ [(i, ⟨e, a⟩)])) message := by
  have kept : (s.2.2.sessions session).infoMessage = some message →
      ∃ j, Announces site (tasks j) session (own j (tr ++ [(i, ⟨e, a⟩)])) message := by
    intro before
    obtain ⟨j, announces⟩ := sofar.info session message before
    exact ⟨j, announces_later announces (own_later i j _)⟩
  rcases session_step did session with ⟨assignment, rfl, after⟩ | ⟨_, same⟩
  · rw [after] at shown
    cases assignment with
    | currentTransactionId id => exact kept shown
    | errorMessage text => exact kept shown
    | infoMessage text =>
      subst shown
      exact ⟨i, announces_later (truthful sound) (own_later i i _)⟩
  · rw [same] at shown
    exact kept shown

theorem messages_true_step (sofar : MessagesTrue site tasks s tr)
    (keys : KeepsKeys (fun i => (tasks i).circuit) s tr)
    (truthful : Truthful site (tasks i) (own i tr) e) (did : fineEffect rusAuth s e a s') :
    MessagesTrue site tasks s' (tr ++ [(i, ⟨e, a⟩)]) where
  error _ _ shown := error_step sofar (sound_of_keys keys i) truthful did shown
  localError _ _ shown := local_error_step sofar (sound_of_keys keys i) truthful did shown
  info _ _ shown := info_step sofar (sound_of_keys keys i) truthful did shown

/-- In every reachable state of every run the messages are true: an error of a
    session or a page is the message of an exception that one of its own actions has
    met, never that the journal lacked a transaction, and an information reports
    what the task that set it had done. -/
theorem messages_have_causes
    (run : Exec (fun _ => fineEffect rusAuth) (facadePool site tasks (∅, service, circuits)) tr q)
    (fresh : ∀ session, circuits.sessions session = .initial)
    (clean : ∀ page, (circuits.pages page).localError = none) :
    MessagesTrue site tasks q.shared tr := by
  have untracked : ∀ session, (circuits.sessions session).currentTransactionId = none := by
    intro session
    rw [fresh]
    rfl
  induction run with
  | nil =>
    constructor
    case error =>
      intro session message shown
      change (circuits.sessions session).errorMessage = some message at shown
      rw [fresh] at shown
      cases shown
    case localError =>
      intro page message shown
      cases (clean page).symm.trans shown
    case info =>
      intro session message shown
      change (circuits.sessions session).infoMessage = some message at shown
      rw [fresh] at shown
      cases shown
  | @snoc m q tr l before last ih =>
    have truthful := exec_obeys before last (task_truthful site (tasks l.1))
    cases last with
    | act ready did => exact messages_true_step ih (keys_run before untracked) truthful did

end Runs

/- A check on a page whose session tracks nothing, a start on a page of another session,
   and its callback, which the account page of a third one listens to. -/
namespace ThreeMessages

inductive Party where
  | checking
  | starting
  | listening
  | webhook
  deriving DecidableEq

def tasks : Party → FacadeTask
  | .checking => .app (.checkStatus Sample.page)
  | .starting => .app (.submit ⟨.authorize, 1, 0⟩)
  | .listening => .app (.openPage ⟨.account, 2, 0⟩)
  | .webhook => .app (.callback (Sample.callback (lit "79001234567")))

def schedule : List Party :=
  List.replicate 10 .checking ++ List.replicate 14 .starting ++ [.listening] ++
    List.replicate 10 .webhook

def after : OuterTrace StoreSig Party × FacadePool Unit Party :=
  replay (Sample.answering Sample.confirming) (facadePool Sample.site tasks (∅, (), .initial))
    schedule

theorem run : Exec (fun _ => fineEffect Sample.anyService)
    (facadePool Sample.site tasks (∅, (), .initial)) after.1 after.2 :=
  replay_exec (fun _ => Sample.answering_any _) _ _

end ThreeMessages

theorem check_without_start_reported :
    (ThreeMessages.after.2.shared.2.2.sessions 0).errorMessage = some noTransactionMessage ∧
    (ThreeMessages.after.2.shared.2.2.sessions 1).infoMessage = some startedMessage ∧
    (ThreeMessages.after.2.shared.2.2.sessions 2).infoMessage = some (callbackMessage [116]) ∧
    MessagesTrue Sample.site ThreeMessages.tasks ThreeMessages.after.2.shared
      ThreeMessages.after.1 := by
  refine ⟨rfl, rfl, rfl, ?_⟩
  exact messages_have_causes ThreeMessages.run (fun _ => rfl) fun _ => rfl

end RusAuthExample
