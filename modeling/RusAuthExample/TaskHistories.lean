import RusAuthExample.ExamplePages

/-!
What a task of the application must have done before it does a thing. Said once
for every task and every path of its program, this is all that later results
need to know about the facade, the pages and the controller.
-/
namespace RusAuthExample
open Utf16Text OperationPrograms

/-- Operations that touch neither RusAuth nor a record. -/
def Local : AppSig.Op → Prop
  | .inl (.get _) => True
  | .inl _ => False
  | .inr (.inl _) => False
  | .inr (.inr _) => True

/-- The filter lets the request through, and its body binds. -/
structure Accepted (site : Site) (request : CallbackRequest)
    (body : RusAuthConfirmationWebHookRequest) : Prop where
  passes : onAuthorization site.callbackOptions request.authorization = none
  binds : request.body = some body

def NoCall (past : List (Performed AppSig)) : Prop :=
  ∀ call outcome, (⟨.inl call, outcome⟩ : Performed AppSig) ∉ past

/-- What the past of a task must contain for its next operation. -/
def Justified (site : Site) (task : AppTask) (past : List (Performed AppSig)) : AppSig.Op → Prop
  | .inl (.start response request) =>
    NoCall past ∧ (∃ page, task = .submit page) ∧
      (⟨.inr (.inl (.callToConfirm request)), Except.ok response⟩ : Performed AppSig) ∈ past
  | .inl (.get _) => True
  | .inl (.markCallbackReceived body) =>
    NoCall past ∧ ∃ request, task = .callback request ∧ Accepted site request body ∧
      (⟨.inr (.inl (.sendCallback request)), ()⟩ : Performed AppSig) ∈ past ∧
      (⟨.inr (.inr (.receive request)), ()⟩ : Performed AppSig) ∈ past
  | .inl (.markManualStatus transactionId status) =>
    NoCall past ∧ ∃ page model request, task = .checkStatus page ∧
      request.transactionId = transactionId ∧ request.phoneNumber = model.phoneNumber ∧
      (⟨.inr (.inr (.model page)), model⟩ : Performed AppSig) ∈ past ∧
      (⟨.inr (.inl (.checkConfirmation request)), Except.ok ⟨status⟩⟩ : Performed AppSig) ∈ past
  | .inr (.inl (.callToConfirm _)) => ∃ page, task = .submit page
  | .inr (.inl (.checkConfirmation request)) =>
    ∃ page model, task = .checkStatus page ∧ request.phoneNumber = model.phoneNumber ∧
      (⟨.inr (.inr (.model page)), model⟩ : Performed AppSig) ∈ past ∧
      (⟨.inr (.inr (.currentTransactionId page.session)), some request.transactionId⟩ :
        Performed AppSig) ∈ past
  | .inr (.inl (.sendCallback request)) => task = .callback request
  | .inr (.inl (.decide transactionId status)) => task = .decide transactionId status
  | .inr (.inr _) => True

theorem justified_local {site : Site} {task : AppTask} (past : List (Performed AppSig))
    (e : AppSig.Op) (free : Local e) : Justified site task past e := by
  match e with
  | .inl (.get _) => trivial
  | .inr (.inr _) => trivial

/-- What a publish does: it reads the subscribers, and a handler looks up the
    transaction shown, announces the callback and renders its page. -/
def OfPublish : AppSig.Op → Prop
  | .inl (.get _) => True
  | .inr (.inr .handlers) => True
  | .inr (.inr (.currentTransactionId _)) => True
  | .inr (.inr (.assign _ (.infoMessage (some message)))) =>
    message = updatedMessage ∨ ∃ transactionId, message = callbackMessage transactionId
  | .inr (.inr (.assign _ (.errorMessage none))) => True
  | .inr (.inr (.setLocalError _ _)) => True
  | .inr (.inr (.stateHasChanged _)) => True
  | _ => False

theorem of_publish_local (e : AppSig.Op) (used : OfPublish e) : Local e := by
  match e with
  | .inl (.get _) => trivial
  | .inr (.inr _) => trivial

section Uses

theorem current_uses {P : AppSig.Op → Prop} (session : SessionId)
    (tracked : P (.inr (.inr (.currentTransactionId session)))) (gets : ∀ id, P (.inl (.get id))) :
    (getCurrentFlow session).Uses P := by
  refine ⟨tracked, fun (found : Option Str) => ?_⟩
  cases found with
  | none => trivial
  | some transactionId =>
    dsimp only [Prog.bind]
    split
    · trivial
    · exact ⟨gets transactionId, Prog.uses_of_except⟩

theorem shown_uses {P : AppSig.Op → Prop} (session : SessionId)
    (tracked : P (.inr (.inr (.currentTransactionId session)))) (gets : ∀ id, P (.inl (.get id))) :
    (shownTransactionId session).Uses P := by
  refine Prog.uses_bind (current_uses session tracked gets) fun found => ?_
  cases found with
  | none => exact ⟨tracked, fun _ => trivial⟩
  | some flow => trivial

theorem render_uses {P : AppSig.Op → Prop} (page : Page)
    (renders : P (.inr (.inr (.stateHasChanged page)))) : (stateHasChanged page).Uses P :=
  ⟨renders, Prog.uses_of_except⟩

theorem refresh_local (page : Page) : (refreshAsync page).Uses Local := by
  obtain ⟨kind, session, number⟩ := page
  cases kind with
  | account => exact ⟨trivial, fun _ => ⟨trivial, fun _ => render_uses _ trivial⟩⟩
  | authorize =>
    exact ⟨trivial, fun _ => ⟨trivial, fun _ => ⟨trivial, fun _ => render_uses _ trivial⟩⟩⟩

theorem handler_uses (page : Page) (update : ExampleConfirmationUpdate) :
    (onConfirmationUpdatedAsync page update).Uses OfPublish := by
  obtain ⟨kind, session, number⟩ := page
  cases kind with
  | account => exact ⟨Or.inr ⟨_, rfl⟩, fun _ => ⟨trivial, fun _ => render_uses _ trivial⟩⟩
  | authorize =>
    refine Prog.uses_bind (shown_uses session trivial fun _ => trivial) fun shown => ?_
    dsimp only
    split
    · trivial
    · exact ⟨Or.inl rfl, fun _ => ⟨trivial, fun _ => ⟨trivial, fun _ => render_uses _ trivial⟩⟩⟩

theorem publish_uses (update : ExampleConfirmationUpdate) (cancellationToken : CancellationToken) :
    (((publishAsync update cancellationToken).onRight (S := callSig)).interp withPages).Uses
      OfPublish := by
  refine Prog.uses_interp (Prog.uses_on_right (P := fun e => ∃ f, e = .inr f) _ fun e => ⟨e, rfl⟩) ?_
  rintro _ ⟨f, rfl⟩
  cases f with
  | confirmationUpdated => exact ⟨trivial, fun _ => trivial⟩
  | isCancellationRequested => trivial
  | invoke page update =>
    refine Prog.uses_bind (Prog.uses_attempt (handler_uses page update)) fun outcome => ?_
    cases outcome <;> trivial

theorem shown_local (session : SessionId) : (shownTransactionId session).Uses Local :=
  shown_uses session trivial fun _ => trivial

theorem publish_local (update : ExampleConfirmationUpdate) (cancellationToken : CancellationToken) :
    (((publishAsync update cancellationToken).onRight (S := callSig)).interp withPages).Uses
      Local := Prog.uses_weaken (publish_uses update cancellationToken) of_publish_local

end Uses

section Tasks
variable {site : Site} {task : AppTask}

theorem obeys_local {A : Type} {p : AppM A} (uses : p.Uses Local) (past : List (Performed AppSig)) :
    p.Obeys (Justified site task) past :=
  Prog.obeys_of_uses uses justified_local past

theorem no_call_nil : NoCall [] := fun _ _ member => absurd member List.not_mem_nil

theorem no_call_snoc {past : List (Performed AppSig)} (fresh : NoCall past)
    (e : (rusAuthSig.sum hostSig).Op) (a : (rusAuthSig.sum hostSig).Answer e) :
    NoCall (past ++ [⟨.inr e, a⟩]) := by
  intro call outcome member
  rw [List.mem_append, List.mem_singleton] at member
  rcases member with old | new
  · exact fresh _ _ old
  · cases new

/-- A page action may do what its body may do; what is around it is local. -/
theorem execute_obeys (page : Page) {action : AppM Unit}
    (acts : ∀ past, NoCall past → action.Obeys (Justified site task) past) :
    (executeAsync page action).Obeys (Justified site task) [] := by
  refine Prog.obeys_op trivial fun _ => Prog.obeys_op trivial fun _ =>
    Prog.obeys_op trivial fun _ => Prog.obeys_op trivial fun _ => ?_
  refine Prog.obeys_ensure (Prog.obeys_recover (Prog.obeys_bind (acts _ ?_) ?_) ?_) ?_
  · exact no_call_snoc (no_call_snoc (no_call_snoc (no_call_snoc no_call_nil _ _) _ _) _ _) _ _
  · exact fun _ => obeys_local (Prog.uses_bind (shown_local _) fun _ => trivial)
  · exact fun _ => obeys_local ⟨trivial, fun _ => ⟨trivial, fun _ => ⟨trivial, fun _ => trivial⟩⟩⟩
  · exact obeys_local ⟨trivial, fun _ => trivial⟩

theorem submit_obeys (page : Page) :
    (submitAsync site page).Obeys (Justified site (.submit page)) [] := by
  refine execute_obeys page fun past fresh => ?_
  refine Prog.obeys_op trivial fun (model : AuthorizeFormModel) => ?_
  have fresh₁ := no_call_snoc fresh (.inr (.model page)) model
  refine Prog.obeys_op ⟨page, rfl⟩ fun (reply : Except Exn RusAuthCallToConfirmResponse) => ?_
  refine Prog.obeys_op trivial fun _ => ?_
  cases reply with
  | error x => trivial
  | ok response =>
    refine Prog.obeys_op ⟨no_call_snoc (no_call_snoc fresh₁ _ _) _ _, ⟨page, rfl⟩, by simp⟩
      fun (outcome : Except Exn ExampleConfirmationFlow) => ?_
    cases outcome with
    | error x => trivial
    | ok flow =>
      exact Prog.obeys_op trivial fun _ => Prog.obeys_op trivial fun _ =>
        Prog.obeys_op trivial fun _ => Prog.obeys_op trivial fun _ => trivial

theorem check_obeys (page : Page) :
    (checkStatusAsync page).Obeys (Justified site (.checkStatus page)) [] := by
  refine execute_obeys page fun past fresh => ?_
  refine Prog.obeys_op trivial fun (model : AuthorizeFormModel) => ?_
  have fresh₁ := no_call_snoc fresh (.inr (.model page)) model
  refine Prog.obeys_op trivial fun (tracked : Option Str) => ?_
  have fresh₂ := no_call_snoc fresh₁ (.inr (.currentTransactionId page.session)) tracked
  cases tracked with
  | none => trivial
  | some transactionId =>
    refine Prog.obeys_op ⟨page, model, rfl, rfl, by simp, by simp⟩
      fun (reply : Except Exn RusCheckConfirmationResponse) => ?_
    refine Prog.obeys_op trivial fun _ => ?_
    cases reply with
    | error x => trivial
    | ok response =>
      refine Prog.obeys_op ⟨no_call_snoc (no_call_snoc fresh₂ _ _) _ _, page, model,
        ⟨model.phoneNumber, transactionId⟩, rfl, rfl, rfl, by simp, by simp⟩
        fun (outcome : Except Exn (Option ExampleConfirmationFlow)) => ?_
      rcases outcome with x | _ | flow
      · trivial
      · trivial
      · exact Prog.obeys_op trivial fun _ => Prog.obeys_op trivial fun _ => trivial

theorem callback_obeys (request : CallbackRequest) :
    (handleCallback site request).Obeys (Justified site (.callback request)) [] := by
  refine Prog.obeys_op rfl fun _ => Prog.obeys_op trivial fun _ => ?_
  dsimp only [callbackEndpoint]
  split
  · trivial
  · trivial
  · rename_i body passes binds
    have fresh := no_call_snoc (no_call_snoc no_call_nil (.inl (.sendCallback request)) ())
      (.inr (.receive request)) ()
    refine Prog.obeys_op ⟨fresh, request, rfl, ⟨passes, binds⟩, List.mem_cons_self, ?_⟩
      fun (outcome : Except Exn (Option ExampleConfirmationFlow)) => ?_
    · exact List.mem_cons_of_mem _ List.mem_cons_self
    rcases outcome with x | _ | flow
    · trivial
    · trivial
    · show (Prog.interp withPages ((publishAsync (updateOf flow) .none).onRight.bind fun _ =>
        .ret ActionResult.ok)).Obeys _ _
      rw [Prog.interp_bind]
      exact Prog.obeys_bind (obeys_local (publish_local _ _) _) fun _ _ => trivial

theorem task_obeys (site : Site) (task : AppTask) :
    (task.program site).Obeys (Justified site task) [] := by
  cases task with
  | openPage page => exact ⟨trivial, fun _ => trivial⟩
  | disposePage page => exact ⟨trivial, fun _ => trivial⟩
  | edit page model => exact ⟨trivial, fun _ => trivial⟩
  | submit page => exact Prog.obeys_bind (submit_obeys page) fun _ _ => trivial
  | checkStatus page => exact Prog.obeys_bind (check_obeys page) fun _ _ => trivial
  | refresh page => exact Prog.obeys_bind (obeys_local (refresh_local page) _) fun _ _ => trivial
  | callback request => exact Prog.obeys_bind (callback_obeys request) fun _ _ => trivial
  | decide transactionId status => exact ⟨rfl, fun _ => trivial⟩

end Tasks
end RusAuthExample
