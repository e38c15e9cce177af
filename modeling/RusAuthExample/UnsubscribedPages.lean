import RusAuthExample.PageLifecycle

/-!
Handlers that run after their page has unsubscribed. A publish reads the list of
subscribers once and then goes through it, however long it is suspended on the
way. To see in a run when a handler is called, the call is made an event of its
own here; it changes nothing, and without it the programs are those of the
pages and the controller.
-/
namespace RusAuthExample
open Utf16Text OperationPrograms InterleavedRuns

def handlerCall : Signature := ⟨Page × ExampleConfirmationUpdate, fun _ => Unit⟩

abbrev WatchedSig := (callSig.sum handlerCall).sum (rusAuthSig.sum hostSig)

abbrev WatchedM := Prog WatchedSig Exn

def unwatched : (e : AppSig.Op) → WatchedM (AppSig.Answer e)
  | .inl call => .op (.inl (.inl call)) .ret
  | .inr e => .op (.inr e) .ret

def watchedPages : (e : (callSig.sum (notifierSig Page)).Op) →
    WatchedM ((callSig.sum (notifierSig Page)).Answer e)
  | .inr (.invoke page update) =>
    .op (.inl (.inr (page, update))) fun _ => (invokePage page update).interp unwatched
  | .inr .confirmationUpdated => (withPages (.inr .confirmationUpdated)).interp unwatched
  | .inr .isCancellationRequested => (withPages (.inr .isCancellationRequested)).interp unwatched
  | .inl call => (withPages (.inl call)).interp unwatched

inductive WatchedTask where
  | publish (update : ExampleConfirmationUpdate) (cancellationToken : CancellationToken)
  | app (task : AppTask)
  deriving DecidableEq

def watchedPublish (update : ExampleConfirmationUpdate) (cancellationToken : CancellationToken) :
    WatchedM Unit :=
  ((publishAsync update cancellationToken).onRight (S := callSig)).interp watchedPages

def watchedEndpoint (site : Site) (request : CallbackRequest) : WatchedM ActionResult :=
  match onAuthorization site.callbackOptions request.authorization, request.body with
  | some result, _ => .ret result
  | none, none => .ret .badRequest
  | none, some body => (confirmation body).interp watchedPages

def WatchedTask.program (site : Site) : WatchedTask → WatchedM (Option ActionResult)
  | .publish update cancellationToken =>
    (watchedPublish update cancellationToken).bind fun _ => .ret none
  | .app (.callback request) =>
    .op (.inr (.inl (.sendCallback request))) fun _ => .op (.inr (.inr (.receive request))) fun _ =>
      (watchedEndpoint site request).bind fun result => .ret (some result)
  | .app task => (task.program site).interp unwatched

section Erasure

def erased : (e : WatchedSig.Op) → AppM (WatchedSig.Answer e)
  | .inl (.inl call) => .op (.inl call) .ret
  | .inl (.inr _) => .ret ()
  | .inr e => .op (.inr e) .ret

theorem erase_unwatched {A : Type} (p : AppM A) : (p.interp unwatched).interp erased = p := by
  rw [Prog.interp_interp]
  have same : (fun e => (unwatched e).interp erased) = fun e => Prog.perform e := by
    funext e
    cases e <;> rfl
  rw [same, Prog.interp_perform]

theorem erase_watched_pages {A : Type} (p : Prog (callSig.sum (notifierSig Page)) Exn A) :
    (p.interp watchedPages).interp erased = p.interp withPages := by
  rw [Prog.interp_interp]
  refine congrArg (fun h => p.interp h) (funext fun e => ?_)
  match e with
  | .inl call => exact erase_unwatched _
  | .inr .confirmationUpdated => exact erase_unwatched _
  | .inr .isCancellationRequested => exact erase_unwatched _
  | .inr (.invoke page update) => exact erase_unwatched (invokePage page update)

/-- The events aside, a watched task is the task. -/
theorem erase_task (site : Site) (task : AppTask) :
    ((WatchedTask.app task).program site).interp erased = task.program site := by
  cases task with
  | callback request =>
    have endpoint : (watchedEndpoint site request).interp erased = callbackEndpoint site request := by
      rw [watchedEndpoint, callbackEndpoint]
      cases onAuthorization site.callbackOptions request.authorization with
      | some result => rfl
      | none =>
        cases request.body with
        | none => rfl
        | some body => exact erase_watched_pages _
    refine congrArg (Prog.op _) (funext fun _ => congrArg (Prog.op _) (funext fun _ => ?_))
    show ((watchedEndpoint site request).bind fun result => .ret (some result)).interp erased = _
    rw [Prog.interp_bind, endpoint]
    rfl
  | _ => exact erase_unwatched _

end Erasure

variable {ς ι : Type}

def watchedStore : Semantics (callSig.sum handlerCall) Journal := fun s e =>
  match e with
  | .inl call => fun a s' => callEffect s call a s'
  | .inr _ => fun _ s' => s' = s

def watchedEffect (rusAuth : Semantics rusAuthSig ς) : Semantics WatchedSig (App ς) :=
  beside watchedStore (beside rusAuth hostEffect)

abbrev WatchedPool (ς ι : Type) := Pool WatchedSig Exn (Option ActionResult) (App ς) ι

abbrev WatchedTrace (ι : Type) := OuterTrace (callSig.sum handlerCall) ι

def watchedPool (site : Site) (tasks : ι → WatchedTask) (s : App ς) : WatchedPool ς ι :=
  ⟨s, fun i => (tasks i).program site⟩

def reads (i : ι) (handlers : List Page) : Label WatchedSig ι :=
  (i, ⟨.inr (.inr .handlers), handlers⟩)

def removes (i : ι) (page : Page) : Label WatchedSig ι :=
  (i, ⟨.inr (.inr (.removeHandler page)), ()⟩)

def called : WatchedSig.Op → Option Page
  | .inl (.inr (page, _)) => some page
  | _ => none

/-- The page whose handler was called last. -/
def running (past : List (Performed WatchedSig)) : Option Page :=
  (past.filterMap fun o => called o.1).getLast?

def IsMessage : WatchedSig.Op → Prop
  | .inr (.inr (.assign _ (.infoMessage _))) => True
  | .inr (.inr (.assign _ (.errorMessage _))) => True
  | _ => False

/-- The operation calls the handler of the page, or is a message that this
    handler writes. -/
def HandlerActs (page : Page) (past : List (Performed WatchedSig)) (e : WatchedSig.Op) : Prop :=
  called e = some page ∨ (running past = some page ∧ IsMessage e)

def Calm : WatchedSig.Op → Prop := fun e => called e = none

/-- A handler is called only if its page is in the list the task has read. -/
def CallsListed (past : List (Performed WatchedSig)) (e : WatchedSig.Op) : Prop :=
  ∀ page, called e = some page → ∃ handlers : List Page,
    page ∈ handlers ∧ (⟨.inr (.inr .handlers), handlers⟩ : Performed WatchedSig) ∈ past

section Tasks

theorem unwatched_calm {A : Type} (p : AppM A) : (p.interp unwatched).Uses Calm := by
  refine Prog.uses_interp (P := fun _ => True) ?_ fun e _ => ?_
  · induction p with
    | ret a => trivial
    | raise x => trivial
    | op e next ih => exact ⟨trivial, ih⟩
  · cases e <;> exact ⟨rfl, fun _ => trivial⟩

theorem calls_listed_calm (past : List (Performed WatchedSig)) (e : WatchedSig.Op) (calm : Calm e) :
    CallsListed past e := by
  intro page calls
  rw [calm] at calls
  cases calls

theorem follows_calm {A : Type} (p : AppM A) (past : List (Performed WatchedSig)) :
    (p.interp unwatched).Follows CallsListed (fun _ done => past <+: done) past :=
  Prog.follows_of_uses (unwatched_calm p) calls_listed_calm past

theorem deliver_calls_listed (update : ExampleConfirmationUpdate)
    (cancellationToken : CancellationToken) {handlers rest : List Page}
    (listed : ∀ page ∈ rest, page ∈ handlers) {past : List (Performed WatchedSig)}
    (read : (⟨.inr (.inr .handlers), handlers⟩ : Performed WatchedSig) ∈ past) :
    (((deliver update cancellationToken rest).onRight (S := callSig)).interp watchedPages).Follows
      CallsListed (fun _ _ => True) past := by
  induction rest generalizing past with
  | nil => trivial
  | cons page rest ih =>
    have turn : ((deliver update cancellationToken (page :: rest)).onRight (S := callSig)).interp
        watchedPages = .op (.inl (.inr (page, update))) fun _ =>
          ((invokePage page update).interp unwatched).bind fun outcome =>
            (((Prog.ofExcept outcome.result).bind fun _ =>
              deliver update cancellationToken rest).onRight (S := callSig)).interp watchedPages := by
      cases cancellationToken <;> rfl
    rw [turn]
    refine Prog.follows_op ?_ fun _ => ?_
    · rintro _ ⟨⟩
      exact ⟨handlers, listed page List.mem_cons_self, read⟩
    · refine Prog.follows_bind (follows_calm _ _) (fun outcome done later => ?_) fun _ _ _ => trivial
      have still := later.subset (List.mem_append_left _ read)
      cases outcome with
      | completes => exact ih (fun p member => listed p (List.mem_cons_of_mem _ member)) still
      | throwsAtCall x => trivial
      | faultsTask x => trivial

theorem publish_calls_listed (update : ExampleConfirmationUpdate)
    (cancellationToken : CancellationToken) (past : List (Performed WatchedSig)) :
    (watchedPublish update cancellationToken).Follows CallsListed (fun _ _ => True) past := by
  refine Prog.follows_op nofun fun (handlers : List Page) => ?_
  have delivers : (((deliver update cancellationToken handlers).onRight (S := callSig)).interp
      watchedPages).Follows CallsListed (fun _ _ => True)
      (past ++ [⟨.inr (.inr .handlers), handlers⟩]) :=
    deliver_calls_listed update cancellationToken (fun _ member => member) (by simp)
  cases handlers <;> exact delivers

theorem endpoint_calls_listed (site : Site) (request : CallbackRequest)
    (past : List (Performed WatchedSig)) :
    (watchedEndpoint site request).Follows CallsListed (fun _ _ => True) past := by
  rw [watchedEndpoint]
  cases onAuthorization site.callbackOptions request.authorization with
  | some result => trivial
  | none =>
    cases request.body with
    | none => trivial
    | some body =>
      refine Prog.follows_op nofun
        fun (outcome : Except Exn (Option ExampleConfirmationFlow)) => ?_
      rcases outcome with x | _ | flow
      · trivial
      · trivial
      · show (Prog.interp watchedPages ((publishAsync (updateOf flow) .none).onRight.bind fun _ =>
          .ret ActionResult.ok)).Follows _ _ _
        rw [Prog.interp_bind]
        exact Prog.follows_bind (publish_calls_listed (updateOf flow) .none _)
          (fun _ _ _ => trivial) fun _ _ _ => trivial

theorem task_calls_listed (site : Site) (task : WatchedTask) :
    (task.program site).Obeys CallsListed [] := by
  refine Prog.obeys_of_follows (Q := fun _ _ => True) ?_
  cases task with
  | publish update cancellationToken =>
    exact Prog.follows_bind (publish_calls_listed update cancellationToken [])
      (fun _ _ _ => trivial) fun _ _ _ => trivial
  | app task =>
    cases task with
    | callback request =>
      exact Prog.follows_op nofun fun _ => Prog.follows_op nofun fun _ =>
        Prog.follows_bind (endpoint_calls_listed site request _) (fun _ _ _ => trivial)
          fun _ _ _ => trivial
    | _ => exact Prog.follows_weaken (follows_calm _ []) fun _ _ _ => trivial

end Tasks

section Runs
variable [DecidableEq ι] {rusAuth : Semantics rusAuthSig ς} {site : Site}
  {tasks : ι → WatchedTask} {s : App ς} {q : WatchedPool ς ι}

/-- What a task reads as the list of subscribers are the live pages. -/
theorem read_live {tr xs ys : WatchedTrace ι}
    (run : Exec (fun _ => watchedEffect rusAuth) (watchedPool site tasks s) tr q)
    (unsubscribed : s.2.2.handlers = []) (lives : Lifecycle tr) {i : ι} {handlers : List Page}
    (split : tr = xs ++ reads i handlers :: ys) : handlers = livePages xs := by
  subst split
  obtain ⟨m, m', before, step, _⟩ := exec_at run
  rw [← handlers_live before unsubscribed (lifecycle_before lives)]
  generalize label : reads i handlers = l at step
  cases step with
  | @act j e next a s' ready did =>
    cases label
    obtain ⟨renders, answer, _⟩ := host_answered did
    exact answer

theorem call_listed {tr xs ys : WatchedTrace ι}
    (run : Exec (fun _ => watchedEffect rusAuth) (watchedPool site tasks s) tr q) {i : ι}
    {o : Performed WatchedSig} (split : tr = xs ++ (i, o) :: ys) {page : Page}
    (calls : called o.1 = some page) : ∃ handlers, page ∈ handlers ∧ reads i handlers ∈ xs := by
  subst split
  obtain ⟨handlers, listed, read⟩ :=
    exec_obeys_at run (task_calls_listed site (tasks i)) page calls
  exact ⟨handlers, listed, mem_own.mp read⟩

/-- A handler that acts is that of a page in the list its task has read. -/
theorem handler_acts_listed {tr xs ys : WatchedTrace ι}
    (run : Exec (fun _ => watchedEffect rusAuth) (watchedPool site tasks s) tr q) {i : ι}
    {o : Performed WatchedSig} (split : tr = xs ++ (i, o) :: ys) {page : Page}
    (acts : HandlerActs page (own i xs) o.1) :
    ∃ handlers, page ∈ handlers ∧ reads i handlers ∈ xs := by
  rcases acts with calls | ⟨runs, _⟩
  · exact call_listed run split calls
  · obtain ⟨o', mine, calls⟩ := List.mem_filterMap.mp (List.mem_of_getLast? runs)
    obtain ⟨us, vs, rfl⟩ := List.append_of_mem (mem_own.mp mine)
    have earlier : tr = us ++ (i, o') :: (vs ++ (i, o) :: ys) := by simp [split]
    obtain ⟨handlers, listed, read⟩ := call_listed run earlier calls
    exact ⟨handlers, listed, List.mem_append_left _ read⟩

/-- Once Dispose has removed the handler of a page, no list read later contains
    the page; and if the handler is called then, or writes a session message, it
    is for a publish that had read its list before. -/
theorem late_handler_read_early {xs ys : WatchedTrace ι} {j : ι} {page : Page}
    (run : Exec (fun _ => watchedEffect rusAuth) (watchedPool site tasks s)
      (xs ++ removes j page :: ys) q)
    (unsubscribed : s.2.2.handlers = []) (lives : Lifecycle (xs ++ removes j page :: ys)) :
    (∀ k handlers, reads k handlers ∈ ys → page ∉ handlers) ∧
    ∀ us i o vs, ys = us ++ (i, o) :: vs →
      HandlerActs page (own i (xs ++ removes j page :: us)) o.1 →
      ∃ handlers, page ∈ handlers ∧ reads i handlers ∈ xs := by
  have gone : ∀ k handlers, reads k handlers ∈ ys → page ∉ handlers := by
    intro k handlers member listed
    obtain ⟨us, vs, rfl⟩ := List.append_of_mem member
    have split : xs ++ removes j page :: (us ++ reads k handlers :: vs) =
        (xs ++ removes j page :: us) ++ reads k handlers :: vs := by simp
    have live := read_live run unsubscribed lives split
    have removed : page ∈ disposed (xs ++ removes j page :: us) :=
      List.mem_filterMap.mpr ⟨removes j page, by simp, rfl⟩
    rw [live, livePages, List.mem_filter, decide_eq_true_iff] at listed
    exact listed.2 removed
  refine ⟨gone, fun us i o vs cut acts => ?_⟩
  subst cut
  have split : xs ++ removes j page :: (us ++ (i, o) :: vs) =
      (xs ++ removes j page :: us) ++ (i, o) :: vs := by simp
  obtain ⟨handlers, listed, read⟩ := handler_acts_listed run split acts
  refine ⟨handlers, listed, ?_⟩
  rcases List.mem_append.mp read with early | late
  · exact early
  · rcases List.mem_cons.mp late with same | later
    · cases same
    · exact absurd listed (gone i handlers (List.mem_append_left _ later))

end Runs

/-- No handler of a page is called, and none writes a message, once the page's
    Dispose has removed it. -/
def SilentAfterDispose [DecidableEq ι] (tr : WatchedTrace ι) : Prop :=
  ∀ xs j page us i o vs, tr = xs ++ removes j page :: us ++ (i, o) :: vs →
    ¬ HandlerActs page (own i (xs ++ removes j page :: us)) o.1

/- The second page is disposed while the publish waits for the first one. -/
namespace DisposedMeanwhile

inductive Party where
  | first
  | second
  | publisher
  | leaving
  deriving DecidableEq

def page (session : SessionId) : Page := ⟨.account, session, 0⟩

def tasks : Party → WatchedTask
  | .first => .app (.openPage (page 0))
  | .second => .app (.openPage (page 1))
  | .publisher => .publish ⟨[116], .success, none, none⟩ .none
  | .leaving => .app (.disposePage (page 1))

def store : (e : (callSig.sum handlerCall).Op) → Journal →
    (callSig.sum handlerCall).Answer e × Journal
  | .inl call, journal => call.onJournal (fun _ => 0) journal
  | .inr _, journal => ((), journal)

def part (p : WatchedPool Unit Party) (schedule : List Party) :
    WatchedTrace Party × WatchedPool Unit Party :=
  replay (Prog.alongside store (Prog.alongside Sample.cancelling (hostAnswer fun _ => .ok ()))) p
    schedule

def start : WatchedPool Unit Party := watchedPool Sample.site tasks (∅, (), .initial)

/-- The list is read, the handler of the first page is called and has written its
    message. -/
def published := part start [.first, .second, .publisher, .publisher, .publisher, .publisher]

def disposal := part published.2 [.leaving]

/-- The first page renders, the handler of the second one is called and writes. -/
def resumed := part disposal.2 [.publisher, .publisher, .publisher, .publisher]

def trace : WatchedTrace Party := published.1 ++ disposal.1 ++ resumed.1

theorem part_run (p : WatchedPool Unit Party) (schedule : List Party) :
    Exec (fun _ => watchedEffect Sample.anyService) p (part p schedule).1 (part p schedule).2 :=
  replay_exec (fun _ => beside_alongside
    (fun e journal => by rcases e with call | ⟨⟩ <;> first | exact ⟨_, rfl⟩ | rfl)
    (beside_alongside (fun _ _ => trivial) fun _ _ => ⟨_, rfl⟩)) _ _

theorem split : trace = published.1 ++ removes .leaving (page 1) :: resumed.1 := rfl

theorem run : Exec (fun _ => watchedEffect Sample.anyService) start
    (published.1 ++ removes .leaving (page 1) :: resumed.1) resumed.2 := by
  rw [← split]
  exact exec_trans (exec_trans (part_run _ _) (part_run _ _)) (part_run _ _)

theorem lives : Lifecycle (published.1 ++ removes .leaving (page 1) :: resumed.1) :=
  lifecycle_of_one (page 1) (by decide) (by decide) (by decide) (by decide)

end DisposedMeanwhile

theorem disposed_page_called :
    Exec (fun _ => watchedEffect Sample.anyService) DisposedMeanwhile.start
      DisposedMeanwhile.trace DisposedMeanwhile.resumed.2 ∧
    Lifecycle DisposedMeanwhile.trace ∧ ¬ SilentAfterDispose DisposedMeanwhile.trace := by
  refine ⟨DisposedMeanwhile.run, DisposedMeanwhile.lives, fun silent => ?_⟩
  exact silent DisposedMeanwhile.published.1 .leaving (DisposedMeanwhile.page 1)
    (DisposedMeanwhile.resumed.1.take 1) .publisher
    ⟨.inl (.inr (DisposedMeanwhile.page 1, ⟨[116], .success, none, none⟩)), ()⟩
    (DisposedMeanwhile.resumed.1.drop 2) rfl (Or.inl rfl)

theorem stale_list_read : ∃ handlers, DisposedMeanwhile.page 1 ∈ handlers ∧
    reads .publisher handlers ∈ DisposedMeanwhile.published.1 :=
  (late_handler_read_early DisposedMeanwhile.run rfl DisposedMeanwhile.lives).2
    (DisposedMeanwhile.resumed.1.take 1) .publisher
    ⟨.inl (.inr (DisposedMeanwhile.page 1, ⟨[116], .success, none, none⟩)), ()⟩
    (DisposedMeanwhile.resumed.1.drop 2) rfl (Or.inl rfl)

end RusAuthExample
