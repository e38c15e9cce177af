import RusAuthExample.CallbackUpdates

/-!
What a callback that is answered Ok has done by then. It has recorded the callback, has
read the list of the subscribed pages after that, and has gone through the list to its
end. The pieces of this walk follow one another in the history of the request; here they
are told apart again.
-/
namespace RusAuthExample
open Utf16Text OperationPrograms InterleavedRuns KeyedMemory

variable {ς ι : Type}

def redraws : Performed FineSig → Option Page
  | ⟨.inr (.inr (.stateHasChanged page)), _⟩ => some page
  | _ => none

def redrawn (ops : List (Performed FineSig)) : List Page := ops.filterMap redraws

theorem redrawn_append (us vs : List (Performed FineSig)) :
    redrawn (us ++ vs) = redrawn us ++ redrawn vs := List.filterMap_append

theorem mem_redrawn {page : Page} {ops : List (Performed FineSig)}
    (seen : (⟨.inr (.inr (.stateHasChanged page)), .ok ()⟩ : Performed FineSig) ∈ ops) :
    page ∈ redrawn ops := List.mem_filterMap.mpr ⟨_, seen, rfl⟩

def Looked (session : SessionId) (ops : List (Performed FineSig)) (tracked : Option Str) : Prop :=
  (⟨.inr (.inr (.currentTransactionId session)), tracked⟩ : Performed FineSig) ∈ ops

/-- What the looks of a page at its session and at the journal come to. -/
def LooksShow (session : SessionId) (ops : List (Performed FineSig)) (shown : Option Str) : Prop :=
  Looked session ops shown ∨ ∃ id flow, Looked session ops (some id) ∧
    (⟨.inl (.inl (.get id)), some flow⟩ : Performed FineSig) ∈ ops ∧
    shown = some flow.transactionId

def informs (session : SessionId) (message : Str) : List (Performed FineSig) :=
  [⟨.inr (.inr (.assign session (.infoMessage (some message)))), ()⟩,
    ⟨.inr (.inr (.assign session (.errorMessage none))), ()⟩]

/-- All that the handler of a page does when it completes. -/
inductive Served (update : ExampleConfirmationUpdate) (page : Page) :
    List (Performed FineSig) → Prop where
  | account (kind : page.kind = .account) :
      Served update page (informs page.session (callbackMessage update.transactionId) ++
        [⟨.inr (.inr (.stateHasChanged page)), .ok ()⟩])
  | current (kind : page.kind = .authorize) {looks : List (Performed FineSig)}
      (still : redrawn looks = [])
      (shows : LooksShow page.session looks (some update.transactionId)) :
      Served update page (looks ++ informs page.session updatedMessage ++
        [⟨.inr (.inr (.setLocalError page none)), ()⟩,
          ⟨.inr (.inr (.stateHasChanged page)), .ok ()⟩])
  | other (kind : page.kind = .authorize) {looks : List (Performed FineSig)}
      (still : redrawn looks = []) {shown : Option Str}
      (shows : LooksShow page.session looks shown) (differs : shown ≠ some update.transactionId) :
      Served update page looks

inductive Delivered (update : ExampleConfirmationUpdate) :
    List Page → List (Performed FineSig) → Prop where
  | nil : Delivered update [] []
  | cons {page : Page} {rest : List Page} {us vs : List (Performed FineSig)}
      (first : Served update page us) (others : Delivered update rest vs) :
      Delivered update (page :: rest) (us ++ vs)

section Walks
variable {update : ExampleConfirmationUpdate}

theorem served_redrawn {page : Page} {us : List (Performed FineSig)}
    (served : Served update page us) : redrawn us = [page] ∨ redrawn us = [] := by
  cases served with
  | account kind => exact Or.inl rfl
  | current kind still shows =>
    rw [redrawn_append, redrawn_append, still]
    exact Or.inl rfl
  | other kind still shows differs => exact Or.inr still

/-- Each page is rendered once at most, in the order of the list. -/
theorem delivered_sublist {pages : List Page} {ops : List (Performed FineSig)}
    (delivered : Delivered update pages ops) : (redrawn ops).Sublist pages := by
  induction delivered with
  | nil => exact .slnil
  | @cons page rest us vs first others ih =>
    rw [redrawn_append]
    rcases served_redrawn first with once | never
    · rw [once]
      exact ih.cons_cons page
    · rw [never]
      exact ih.cons page

theorem delivered_served {pages : List Page} {ops : List (Performed FineSig)}
    (delivered : Delivered update pages ops) {page : Page} (listed : page ∈ pages) :
    ∃ us, Served update page us ∧ ∀ o ∈ us, o ∈ ops := by
  induction delivered with
  | nil => cases listed
  | @cons first rest us vs served others ih =>
    rcases List.mem_cons.mp listed with rfl | later
    · exact ⟨us, served, fun o member => List.mem_append_left vs member⟩
    · obtain ⟨ws, its, within⟩ := ih later
      exact ⟨ws, its, fun o member => List.mem_append_right us (within o member)⟩

theorem redrawn_served {pages : List Page} {ops : List (Performed FineSig)}
    (delivered : Delivered update pages ops) {page : Page} (seen : page ∈ redrawn ops) :
    ∃ us, Served update page us ∧ page ∈ redrawn us ∧ ∀ o ∈ us, o ∈ ops := by
  induction delivered with
  | nil => cases seen
  | @cons first rest us vs served others ih =>
    rw [redrawn_append] at seen
    rcases List.mem_append.mp seen with here | later
    · have same : page = first := by
        rcases served_redrawn served with once | never
        · rwa [once, List.mem_singleton] at here
        · rw [never] at here
          cases here
      subst same
      exact ⟨us, served, here, fun o member => List.mem_append_left vs member⟩
    · obtain ⟨ws, its, within, listed⟩ := ih later
      exact ⟨ws, its, within, fun o member => List.mem_append_right us (listed o member)⟩

end Walks

section Tasks
variable {update : ExampleConfirmationUpdate}

/-- The program, at the granularity of accesses, ends as `Q` says. -/
abbrev Does {A : Type} (Q : Except Exn A → List (Performed FineSig) → Prop) (p : AppM A)
    (past : List (Performed FineSig)) : Prop :=
  (p.interp withAccesses).Follows (fun _ _ => True) Q past

theorem shown_does (session : SessionId) (past : List (Performed FineSig)) :
    Does (fun r done => ∃ looks shown, r = .ok shown ∧ done = past ++ looks ∧ redrawn looks = [] ∧
      LooksShow session looks shown) (shownTransactionId session) past := by
  have again : ∀ {looks}, redrawn looks = [] →
      Does (fun r done => ∃ looks shown, r = .ok shown ∧ done = past ++ looks ∧ redrawn looks = [] ∧
        LooksShow session looks shown) (currentTransactionId session) (past ++ looks) := by
    intro looks still
    refine Prog.follows_op trivial fun (tracked : Option Str) => ?_
    refine ⟨looks ++ [⟨.inr (.inr (.currentTransactionId session)), tracked⟩], tracked, rfl,
      List.append_assoc .., ?_, Or.inl (by simp [Looked])⟩
    rw [redrawn_append, still]
    rfl
  refine Prog.follows_op trivial fun (tracked : Option Str) => ?_
  cases tracked with
  | none => exact again rfl
  | some id =>
    by_cases blank : isBlank id = true
    · show ((Prog.bind (if isBlank id then Prog.ret none else callStore (.get id)) _).interp
        withAccesses).Follows _ _ _
      rw [if_pos blank]
      exact again rfl
    · show ((Prog.bind (if isBlank id then Prog.ret none else callStore (.get id)) _).interp
        withAccesses).Follows _ _ _
      rw [if_neg blank]
      refine Prog.follows_op trivial fun (found : Option ExampleConfirmationFlow) => ?_
      rw [List.append_assoc]
      cases found with
      | none => exact again rfl
      | some flow =>
        refine ⟨_, _, rfl, rfl, rfl, Or.inr ⟨id, flow, ?_, ?_, rfl⟩⟩
        · simp [Looked]
        · simp

theorem handler_does (page : Page) (past : List (Performed FineSig)) :
    Does (fun r done => r = .ok () → ∃ us, done = past ++ us ∧ Served update page us)
      (onConfirmationUpdatedAsync page update) past := by
  obtain ⟨kind, session, number⟩ := page
  cases kind with
  | account =>
    refine Prog.follows_op trivial fun _ => Prog.follows_op trivial fun _ =>
      Prog.follows_op trivial fun (outcome : Except Exn Unit) => ?_
    cases outcome with
    | error x => exact nofun
    | ok _ =>
      intro _
      refine ⟨_, ?_, .account rfl⟩
      simp only [informs, List.append_assoc]
      rfl
  | authorize =>
    refine Prog.follows_interp_bind (shown_does session past) ?_ ?_
    · rintro shown done ⟨looks, _, ⟨⟩, rfl, still, shows⟩
      by_cases same : some update.transactionId = shown
      · subst same
        show ((if some update.transactionId ≠ some update.transactionId then Prog.ret () else _).interp
          withAccesses).Follows _ _ _
        rw [if_neg (not_not_intro rfl)]
        refine Prog.follows_op trivial fun _ => Prog.follows_op trivial fun _ =>
          Prog.follows_op trivial fun _ => Prog.follows_op trivial
            fun (outcome : Except Exn Unit) => ?_
        cases outcome with
        | error x => exact nofun
        | ok _ =>
          intro _
          refine ⟨_, ?_, .current rfl still shows⟩
          simp only [informs, List.append_assoc, List.cons_append, List.nil_append]
          rfl
      · show ((if some update.transactionId ≠ shown then Prog.ret () else _).interp
          withAccesses).Follows _ _ _
        rw [if_pos same]
        exact fun _ => ⟨looks, rfl, .other rfl still shows (Ne.symm same)⟩
    · rintro x done ⟨_, _, ⟨⟩, _⟩

theorem deliver_does (pages : List Page) (past : List (Performed FineSig)) :
    Does (fun r done => r = .ok () → ∃ us, done = past ++ us ∧ Delivered update pages us)
      (deliverUpdate update .none pages) past := by
  induction pages generalizing past with
  | nil => exact fun _ => ⟨[], (List.append_nil past).symm, .nil⟩
  | cons page rest ih =>
    show Does _ ((invokePage page update).bind fun outcome =>
      (((Prog.ofExcept outcome.result).bind fun _ =>
        deliver update .none rest).onRight (S := callSig)).interp withPages) past
    have called : Does (fun r done => ∃ outcome, r = .ok outcome ∧ (outcome = .completes →
        ∃ us, done = past ++ us ∧ Served update page us)) (invokePage page update) past := by
      show ((((onConfirmationUpdatedAsync page update).attempt).bind _).interp withAccesses).Follows
        _ _ _
      rw [Prog.interp_bind, Prog.interp_attempt with_accesses_total]
      have tried : (((onConfirmationUpdatedAsync page update).interp withAccesses).attempt :
          Prog FineSig Exn (Except Exn Unit)).Follows (fun _ _ => True)
          (fun r done => ∃ ended, r = .ok ended ∧
            (ended = .ok () → ∃ us, done = past ++ us ∧ Served update page us)) past :=
        Prog.follows_attempt (handler_does page past) fun r done served => ⟨r, rfl, served⟩
      refine Prog.follows_bind tried ?_ ?_
      · rintro ended done ⟨_, ⟨⟩, served⟩
        cases ended with
        | ok _ => exact ⟨.completes, rfl, fun _ => served rfl⟩
        | error x => exact ⟨.faultsTask x, rfl, nofun⟩
      · rintro x done ⟨_, ⟨⟩, _⟩
    refine Prog.follows_interp_bind called ?_ ?_
    · rintro outcome done ⟨_, ⟨⟩, served⟩
      cases outcome with
      | completes =>
        obtain ⟨us, rfl, first⟩ := served rfl
        refine Prog.follows_weaken (ih (past ++ us)) fun r done ended completes => ?_
        obtain ⟨vs, rfl, others⟩ := ended completes
        exact ⟨us ++ vs, List.append_assoc .., .cons first others⟩
      | throwsAtCall x => exact nofun
      | faultsTask x => exact nofun
    · rintro x done ⟨_, ⟨⟩, _⟩

theorem publish_does (past : List (Performed FineSig)) :
    Does (fun r done => r = .ok () → ∃ pages us,
      done = past ++ ⟨.inr (.inr .handlers), pages⟩ :: us ∧ Delivered update pages us)
      (publishUpdate update .none) past := by
  refine Prog.follows_op trivial fun (pages : List Page) => ?_
  have walked : Does (fun r done => r = .ok () → ∃ pages us,
      done = past ++ ⟨.inr (.inr .handlers), pages⟩ :: us ∧ Delivered update pages us)
      (deliverUpdate update .none pages) (past ++ [⟨.inr (.inr .handlers), pages⟩]) := by
    refine Prog.follows_weaken (deliver_does pages _) fun r done ended completes => ?_
    obtain ⟨us, rfl, delivered⟩ := ended completes
    exact ⟨pages, us, by simp, delivered⟩
  cases pages <;> exact walked

/-- What must have been done before the list of subscribers is read: the record that was
    found has been written back with the callback in it. -/
structure WroteCallback (body : RusAuthConfirmationWebHookRequest) (flow : ExampleConfirmationFlow)
    (done : List (Performed FineSig)) : Prop where
  named : ∃ id found, body.transactionId = some id ∧ flow.transactionId = found.transactionId ∧
    (⟨.inl (.inl (.get id)), some found⟩ : Performed FineSig) ∈ done ∧
    (⟨.inl (.inl (.put id flow)), ()⟩ : Performed FineSig) ∈ done
  success : flow.status = .success
  received : flow.callbackReceivedOn ≠ none
  undrawn : redrawn done = []

theorem confirmation_does (body : RusAuthConfirmationWebHookRequest)
    {past : List (Performed FineSig)} (still : redrawn past = []) :
    (((confirmation body).interp withPages).interp withAccesses).Follows (fun _ _ => True)
      (fun r done => r = .ok .ok → ∃ flow before pages us, WroteCallback body flow before ∧
        done = before ++ ⟨.inr (.inr .handlers), pages⟩ :: us ∧ Delivered (updateOf flow) pages us)
      past := by
  obtain ⟨id, number⟩ := body
  cases id with
  | none => exact nofun
  | some id =>
    refine Prog.follows_op trivial fun (found : Option ExampleConfirmationFlow) => ?_
    cases found with
    | none => exact nofun
    | some existing =>
      refine Prog.follows_op trivial fun (c : DateTime) => Prog.follows_op trivial
        fun (t : DateTime) => Prog.follows_op trivial fun _ => ?_
      let flow := callbackUpdate existing c t
      let before := past ++ [⟨.inl (.inl (.get id)), some existing⟩] ++ [⟨.inl (.inr ()), c⟩] ++
        [⟨.inl (.inr ()), t⟩] ++ [⟨.inl (.inl (.put id flow)), ()⟩]
      have recorded : WroteCallback ⟨some id, number⟩ flow before := by
        refine ⟨⟨id, existing, rfl, rfl, by simp [before], by simp [before]⟩, rfl, nofun, ?_⟩
        simp only [before, redrawn_append, still]
        rfl
      show (Prog.interp withAccesses (Prog.interp withPages ((publishAsync
        (updateOf (callbackUpdate existing c t)) .none).onRight.bind fun _ =>
          .ret ActionResult.ok))).Follows _ _ _
      rw [Prog.interp_bind, Prog.interp_bind]
      refine Prog.follows_bind (publish_does before) ?_ fun _ _ _ => nofun
      intro _ done published _
      obtain ⟨pages, us, is, delivered⟩ := published rfl
      exact ⟨flow, before, pages, us, recorded, is, delivered⟩

theorem unauthorized_of_refused {options : ExampleCallbackOptions} {values : List Str}
    {result : ActionResult} (refused : onAuthorization options values = some result) :
    result = .unauthorized := by
  rw [onAuthorization] at refused
  split at refused
  · exact (Option.some.inj refused).symm
  · split at refused
    · cases refused
    · exact (Option.some.inj refused).symm

/-- A callback that is answered Ok has recorded the callback, then read the list of the
    pages, and then served them all. -/
structure ServedAll (request : CallbackRequest) (flow : ExampleConfirmationFlow)
    (before : List (Performed FineSig)) (pages : List Page) (us done : List (Performed FineSig)) :
    Prop where
  recorded : ∃ body, request.body = some body ∧ WroteCallback body flow before
  split : done = before ++ ⟨.inr (.inr .handlers), pages⟩ :: us
  delivered : Delivered (updateOf flow) pages us

theorem callback_does (site : Site) (request : CallbackRequest) :
    (((AppTask.callback request).program site).interp withAccesses).Follows (fun _ _ => True)
      (fun r done => r = .ok (some .ok) → ∃ flow before pages us,
        ServedAll request flow before pages us done) [] := by
  refine Prog.follows_op trivial fun _ => Prog.follows_op trivial fun _ => ?_
  refine Prog.follows_interp_bind (Q := fun r done => r = .ok .ok → ∃ flow before pages us,
    ServedAll request flow before pages us done) ?_ ?_ fun _ _ _ => nofun
  · show ((callbackEndpoint site request).interp withAccesses).Follows _ _ _
    rw [callbackEndpoint]
    split
    · rename_i refuses
      rw [unauthorized_of_refused refuses]
      exact nofun
    · exact nofun
    · rename_i body _ binds
      refine Prog.follows_weaken (confirmation_does body rfl) fun r done ended ok => ?_
      obtain ⟨flow, before, pages, us, recorded, split, delivered⟩ := ended ok
      exact ⟨flow, before, pages, us, ⟨body, binds, recorded⟩, split, delivered⟩
  · intro result done answered ok
    cases ok
    exact answered rfl

end Tasks

section Runs
variable [DecidableEq ι] {rusAuth : Semantics rusAuthSig ς} {site : Site} {tasks : ι → AppTask}
  {service : ς} {circuits : Circuits} {tr : OuterTrace StoreSig ι} {q : FinePool ς ι} {i : ι}

theorem found_named
    (run : Exec (fun _ => fineEffect rusAuth) (finePool site tasks (∅, service, circuits)) tr q)
    {id : Str} {flow : ExampleConfirmationFlow}
    (found : (⟨.inl (.inl (.get id)), some flow⟩ : Performed FineSig) ∈ own i tr) :
    flow.transactionId = id := by
  obtain ⟨xs, ys, rfl⟩ := List.append_of_mem (mem_own.mp found)
  obtain ⟨m, m', before, step, _⟩ := exec_at run
  generalize label : ((i, ⟨.inl (.inl (.get id)), some flow⟩) : Label FineSig ι) = l at step
  cases step with
  | @act j e next a s' ready did =>
    cases label
    have stored := (effect_get did.1).1.symm
    exact ((evidence_sound before).inv id flow stored).named

theorem handlers_read
    (run : Exec (fun _ => fineEffect rusAuth) (finePool site tasks (∅, service, circuits)) tr q)
    (unsubscribed : circuits.handlers = []) (lives : Lifecycle tr) {xs ys : OuterTrace StoreSig ι}
    {pages : List Page} (split : tr = xs ++ (i, ⟨.inr (.inr .handlers), pages⟩) :: ys) :
    pages = livePages xs := by
  subst split
  obtain ⟨m, m', before, step, _⟩ := exec_at run
  rw [← handlers_live before unsubscribed (lifecycle_before lives)]
  generalize label : ((i, ⟨.inr (.inr .handlers), pages⟩) : Label FineSig ι) = l at step
  cases step with
  | @act j e next a s' ready did =>
    cases label
    obtain ⟨renders, answer, _⟩ := host_answered did
    exact answer

/-- By the time at which the request has read the list of subscribers it has written the
    record of its transaction with the callback in it and has rendered nothing. Of the
    pages that are live then it renders each once at most, in the order of their
    initialisation, and every account page; at an authorize page it has looked, and where
    it has not rendered it the session tracked another transaction, or none. -/
structure Refreshed (request : CallbackRequest) (i : ι) (xs ys : OuterTrace StoreSig ι) (id : Str)
    (flow : ExampleConfirmationFlow) : Prop where
  names : ∃ body, request.body = some body ∧ body.transactionId = some id
  recorded : (i, ⟨.inl (.inl (.put id flow)), ()⟩) ∈ xs
  success : flow.status = .success
  received : flow.callbackReceivedOn ≠ none
  undrawn : redrawn (own i xs) = []
  distinct : (livePages xs).Nodup
  once : (redrawn (own i ys)).Sublist (livePages xs)
  account : ∀ page ∈ livePages xs, page.kind = .account → page ∈ redrawn (own i ys)
  current : ∀ page ∈ livePages xs, page.kind = .authorize → page ∈ redrawn (own i ys) →
    Looked page.session (own i ys) (some id)
  other : ∀ page ∈ livePages xs, page.kind = .authorize → page ∉ redrawn (own i ys) →
    ∃ tracked, Looked page.session (own i ys) tracked ∧ tracked ≠ some id

end Runs

/- The account page of one session and the authorize page of another; the callback
   arrives while the start has tracked its transaction and is not over. -/
namespace TwoListeners

inductive Party where
  | account
  | authorize
  | user
  | webhook
  deriving DecidableEq

def account : Page := ⟨.account, 1, 0⟩

def tasks : Party → AppTask
  | .account => .openPage account
  | .authorize => .openPage Sample.page
  | .user => .submit Sample.page
  | .webhook => .callback (Sample.callback (lit "79001234567"))

def schedule : List Party :=
  [.account, .authorize] ++ List.replicate 11 .user ++ List.replicate 7 .webhook ++
    List.replicate 3 .user ++ List.replicate 12 .webhook

def after : OuterTrace StoreSig Party × FinePool Unit Party :=
  replay (Sample.answering Sample.confirming) (finePool Sample.site tasks (∅, (), .initial)) schedule

theorem run : Exec (fun _ => fineEffect Sample.anyService)
    (finePool Sample.site tasks (∅, (), .initial)) after.1 after.2 :=
  replay_exec (fun _ => Sample.answering_any _) _ _

theorem lives : Lifecycle after.1 where
  once := by decide
  after xs l ys page split disposes := by
    have none : page ∈ disposed after.1 :=
      List.mem_filterMap.mpr ⟨l, by simp [split], disposes⟩
    rw [show disposed after.1 = [] by decide] at none
    cases none

end TwoListeners

end RusAuthExample
