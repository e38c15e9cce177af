import RusAuthExample.JournalRecords
import RusAuthExample.ReportedSuccess

/-!
Where a record comes from. A form is sent to RusAuth as it was read, RusAuth names
a transaction, and the record of that start is written under the name. Every
record of the transaction that is written, read or stored afterwards carries the
numbers, the webhook and the creation date of that start, however the updates race.
-/
namespace RusAuthExample
open Utf16Text OperationPrograms InterleavedRuns KeyedMemory

variable {ς ι : Type}

/-- The request a task may send: the form of its page as it has read it, or what
    the facade was called with. -/
def Requested {S : Signature} (site : Site) (past : List (Performed (S.sum (rusAuthSig.sum hostSig))))
    (request : RusAuthCallToConfirmRequest) : FacadeTask → Prop
  | .app (.submit page) => ∃ model,
    (⟨.inr (.inr (.model page)), model⟩ : Performed (S.sum (rusAuthSig.sum hostSig))) ∈ past ∧
      request = callToConfirmRequest site model.phoneNumber
        (buildCallbackUrl site (site.baseUri page.session)) model.expirationMinute
  | .app _ => False
  | .start _ phoneNumber callbackUrl expirationMinute =>
    request = callToConfirmRequest site phoneNumber callbackUrl expirationMinute
  | .check _ _ => False

/-- What must come before a request to RusAuth and before a start of the store. -/
def Sourced (site : Site) (task : FacadeTask) (past : List (Performed AppSig)) : AppSig.Op → Prop
  | .inl (.start response request) => NoCall past ∧
    (⟨.inr (.inl (.callToConfirm request)), Except.ok response⟩ : Performed AppSig) ∈ past
  | .inr (.inl (.callToConfirm request)) => Requested site past request task
  | _ => True

def BeginsNothing : AppSig.Op → Prop
  | .inl (.start _ _) => False
  | .inr (.inl (.callToConfirm _)) => False
  | _ => True

section Tasks
variable {site : Site} {task : FacadeTask}

theorem sourced_of_nothing (past : List (Performed AppSig)) (e : AppSig.Op)
    (nothing : BeginsNothing e) : Sourced site task past e := by
  match e with
  | .inl (.get _) => trivial
  | .inl (.markCallbackReceived _) => trivial
  | .inl (.markManualStatus _ _) => trivial
  | .inr (.inl (.checkConfirmation _)) => trivial
  | .inr (.inl (.decide _ _)) => trivial
  | .inr (.inl (.sendCallback _)) => trivial
  | .inr (.inr _) => trivial

theorem local_begins_nothing (e : AppSig.Op) (free : Local e) : BeginsNothing e := by
  match e with
  | .inl (.get _) => trivial
  | .inr (.inr _) => trivial

theorem obeys_nothing {A : Type} {p : AppM A} (uses : p.Uses BeginsNothing)
    (past : List (Performed AppSig)) : p.Obeys (Sourced site task) past :=
  Prog.obeys_of_uses uses sourced_of_nothing past

theorem start_sourced (session : SessionId) (phoneNumber callbackUrl : Str)
    (expirationMinute : Int) {past : List (Performed AppSig)} (fresh : NoCall past)
    (asks : Requested site past
      (callToConfirmRequest site phoneNumber callbackUrl expirationMinute) task) :
    (startConfirmationAsync site session phoneNumber callbackUrl expirationMinute).Obeys
      (Sourced site task) past := by
  refine Prog.obeys_op asks fun (reply : Except Exn RusAuthCallToConfirmResponse) => ?_
  refine Prog.obeys_op trivial fun _ => ?_
  cases reply with
  | error x => trivial
  | ok response =>
    refine Prog.obeys_op ⟨no_call_snoc (no_call_snoc fresh _ _) _ _, by simp⟩
      fun (outcome : Except Exn ExampleConfirmationFlow) => ?_
    cases outcome with
    | error x => trivial
    | ok flow =>
      -- the transaction is tracked and announced, two assignments each
      exact Prog.obeys_op trivial fun _ => Prog.obeys_op trivial fun _ =>
        Prog.obeys_op trivial fun _ => Prog.obeys_op trivial fun _ => trivial

theorem check_begins_nothing (session : SessionId) (phoneNumber : Str) :
    (checkCurrentConfirmationAsync session phoneNumber).Uses BeginsNothing := by
  rw [check_eq]
  refine ⟨trivial, fun (tracked : Option Str) => ?_⟩
  cases tracked with
  | none => trivial
  | some id =>
    refine ⟨trivial, fun (reply : Except Exn RusCheckConfirmationResponse) => ⟨trivial, fun _ => ?_⟩⟩
    cases reply with
    | error x => trivial
    | ok response =>
      refine ⟨trivial, fun (outcome : Except Exn (Option ExampleConfirmationFlow)) => ?_⟩
      rcases outcome with x | _ | flow
      · trivial
      · trivial
      · exact ⟨trivial, fun _ => ⟨trivial, fun _ => trivial⟩⟩

theorem execute_sourced (page : Page) {action : AppM Unit}
    (acts : ∀ past, NoCall past → action.Obeys (Sourced site task) past) :
    (executeAsync page action).Obeys (Sourced site task) [] := by
  have quiet : ∀ {A : Type} {p : AppM A}, p.Uses Local → ∀ past, p.Obeys (Sourced site task) past :=
    fun uses past => obeys_nothing (Prog.uses_weaken uses local_begins_nothing) past
  refine Prog.obeys_op trivial fun _ => Prog.obeys_op trivial fun _ =>
    Prog.obeys_op trivial fun _ => Prog.obeys_op trivial fun _ => ?_
  refine Prog.obeys_ensure (Prog.obeys_recover (Prog.obeys_bind (acts _ ?_) ?_) ?_) ?_
  · exact no_call_snoc (no_call_snoc (no_call_snoc (no_call_snoc no_call_nil _ _) _ _) _ _) _ _
  · exact fun _ => quiet (Prog.uses_bind (shown_local _) fun _ => trivial)
  · exact fun _ => quiet ⟨trivial, fun _ => ⟨trivial, fun _ => ⟨trivial, fun _ => trivial⟩⟩⟩
  · exact quiet ⟨trivial, fun _ => trivial⟩

theorem submit_sourced (page : Page) :
    (submitAsync site page).Obeys (Sourced site (.app (.submit page))) [] := by
  refine execute_sourced page fun past fresh => ?_
  refine Prog.obeys_op trivial fun (model : AuthorizeFormModel) => ?_
  have asks : Requested site (past ++ [⟨.inr (.inr (.model page)), model⟩])
      (callToConfirmRequest site model.phoneNumber
        (buildCallbackUrl site (site.baseUri page.session)) model.expirationMinute)
      (.app (.submit page)) := ⟨model, by simp, rfl⟩
  have starts := start_sourced page.session model.phoneNumber _ model.expirationMinute
    (no_call_snoc fresh (.inr (.model page)) model) asks
  exact Prog.obeys_bind (f := fun _ => .ret ()) starts fun _ _ => trivial

theorem check_status_sourced (page : Page) (task : FacadeTask) :
    (checkStatusAsync page).Obeys (Sourced site task) [] := by
  refine execute_sourced page fun past _ => ?_
  refine Prog.obeys_op trivial fun (model : AuthorizeFormModel) => ?_
  have checks : (checkCurrentConfirmationAsync page.session model.phoneNumber).Obeys
      (Sourced site task) (past ++ [⟨.inr (.inr (.model page)), model⟩]) :=
    obeys_nothing (check_begins_nothing page.session model.phoneNumber) _
  exact Prog.obeys_bind (f := fun _ => .ret ()) checks fun _ _ => trivial

theorem callback_begins_nothing (request : CallbackRequest) :
    (handleCallback site request).Uses BeginsNothing := by
  refine ⟨trivial, fun _ => ⟨trivial, fun _ => ?_⟩⟩
  show (callbackEndpoint site request).Uses BeginsNothing
  unfold callbackEndpoint
  split
  · trivial
  · trivial
  · refine ⟨trivial, fun (outcome : Except Exn (Option ExampleConfirmationFlow)) => ?_⟩
    rcases outcome with x | _ | flow
    · trivial
    · trivial
    · show (Prog.interp withPages ((publishAsync (updateOf flow) .none).onRight.bind fun _ =>
        .ret ActionResult.ok)).Uses _
      rw [Prog.interp_bind]
      exact Prog.uses_bind (Prog.uses_weaken (publish_local _ _) local_begins_nothing)
        fun _ => trivial

theorem app_task_sourced (site : Site) (task : AppTask) :
    (task.program site).Obeys (Sourced site (.app task)) [] := by
  cases task with
  | openPage page => exact ⟨trivial, fun _ => trivial⟩
  | disposePage page => exact ⟨trivial, fun _ => trivial⟩
  | edit page model => exact ⟨trivial, fun _ => trivial⟩
  | submit page => exact Prog.obeys_bind (submit_sourced page) fun _ _ => trivial
  | checkStatus page => exact Prog.obeys_bind (check_status_sourced page _) fun _ _ => trivial
  | refresh page =>
    exact Prog.obeys_bind (obeys_nothing (Prog.uses_weaken (refresh_local page)
      local_begins_nothing) _) fun _ _ => trivial
  | callback request =>
    exact Prog.obeys_bind (obeys_nothing (callback_begins_nothing request) _) fun _ _ => trivial
  | decide transactionId status => exact ⟨trivial, fun _ => trivial⟩

theorem task_sourced (site : Site) (task : FacadeTask) :
    (task.program site).Obeys (Sourced site task) [] := by
  cases task with
  | app task => exact Prog.obeys_bind (app_task_sourced site task) fun _ _ => trivial
  | start session phoneNumber callbackUrl expirationMinute =>
    exact Prog.obeys_bind (start_sourced session _ _ _ no_call_nil rfl) fun _ _ => trivial
  | check session phoneNumber =>
    exact Prog.obeys_bind (obeys_nothing (check_begins_nothing session phoneNumber) _)
      fun _ _ => trivial

end Tasks

/-- A record as a start writes it, from an answer the task has got. -/
def StartWrites (past : List (Performed FineSig)) (id : Str) (flow : ExampleConfirmationFlow) :
    Prop :=
  ∃ request, ∃ response : RusAuthCallToConfirmResponse, ∃ createdOn,
    response.transactionId = some id ∧
    (⟨.inr (.inl (.callToConfirm request)), Except.ok response⟩ : Performed FineSig) ∈ past ∧
    flow = newFlow id response request createdOn

/-- What must come before a request and before a write at the granularity of accesses:
    a start has written nothing yet, an update has read what it copies. -/
def SourcedAccess (site : Site) (task : FacadeTask) (past : List (Performed FineSig)) :
    FineSig.Op → Prop
  | .inl (.inl (.put id flow)) =>
    (StartWrites past id flow ∧
      ∀ id' flow', (⟨.inl (.inl (.put id' flow')), ()⟩ : Performed FineSig) ∉ past) ∨
    ∃ old, Found past id old ∧ SameOrigin flow old
  | .inr (.inl (.callToConfirm request)) => Requested site past request task
  | _ => True

/-- The past of a task, seen with the store's calls as single steps and as accesses. -/
structure SeenAs (past : List (Performed AppSig)) (done : List (Performed FineSig)) : Prop where
  outer : ∀ e a, (⟨.inr e, a⟩ : Performed AppSig) ∈ past → (⟨.inr e, a⟩ : Performed FineSig) ∈ done
  unwritten : NoCall past → ∀ id flow, (⟨.inl (.inl (.put id flow)), ()⟩ : Performed FineSig) ∉ done

theorem seen_as_call {past : List (Performed AppSig)} {done done' : List (Performed FineSig)}
    (seen : SeenAs past done) (later : done <+: done') (call : StoreCall)
    (outcome : callSig.Answer call) : SeenAs (past ++ [⟨.inl call, outcome⟩]) done' where
  outer e a member := by
    rw [List.mem_append, List.mem_singleton] at member
    rcases member with old | new
    · exact later.subset (seen.outer e a old)
    · cases new
  unwritten fresh := absurd (by simp) (fresh call outcome)

theorem seen_as_outer {past : List (Performed AppSig)} {done : List (Performed FineSig)}
    (seen : SeenAs past done) (e : (rusAuthSig.sum hostSig).Op)
    (a : (rusAuthSig.sum hostSig).Answer e) :
    SeenAs (past ++ [⟨.inr e, a⟩]) (done ++ [⟨.inr e, a⟩]) where
  outer f b member := by
    rw [List.mem_append, List.mem_singleton] at member ⊢
    rcases member with old | new
    · exact Or.inl (seen.outer f b old)
    · cases new
      exact Or.inr rfl
  unwritten fresh id flow member := by
    rw [List.mem_append, List.mem_singleton] at member
    rcases member with old | new
    · exact seen.unwritten (fun call outcome before =>
        fresh call outcome (List.mem_append_left _ before)) id flow old
    · cases new

section Accesses
variable {site : Site} {task : FacadeTask}

theorem commit_sourced {past : List (Performed FineSig)} {id : Str}
    {flow : ExampleConfirmationFlow} {A : Type} (a : A)
    (sourced : SourcedAccess site task past (.inl (.inl (.put id flow)))) :
    (((Prog.op (S := StoreSig) (X := Exn) (.inl (.put id flow)) fun _ => .ret a).attempt :
      Prog StoreSig Exn (Except Exn A)).onLeft (T := rusAuthSig.sum hostSig)).Follows
      (SourcedAccess site task) (fun _ done => past <+: done) past :=
  Prog.follows_op sourced fun _ => List.prefix_append _ _

theorem requested_seen {past : List (Performed AppSig)} {done : List (Performed FineSig)}
    (seen : SeenAs past done) {request : RusAuthCallToConfirmRequest}
    (asks : Requested site past request task) : Requested site done request task := by
  match task with
  | .app (.submit page) =>
    obtain ⟨model, read, is⟩ := asks
    exact ⟨model, seen.outer _ _ read, is⟩
  | .start _ _ _ _ => exact asks

theorem call_sourced {past : List (Performed AppSig)} {done : List (Performed FineSig)}
    (seen : SeenAs past done) (call : StoreCall) (sourced : Sourced site task past (.inl call)) :
    (withAccesses (.inl call)).Follows (SourcedAccess site task) (fun _ done' => done <+: done')
      done := by
  cases call with
  | get id => exact ⟨trivial, fun _ => List.prefix_append _ _⟩
  | start response request =>
    obtain ⟨fresh, replied⟩ := sourced
    obtain ⟨transactionId, number⟩ := response
    refine Prog.follows_op trivial fun (created : DateTime) => ?_
    cases transactionId with
    | none => exact List.prefix_append _ _
    | some id =>
      refine Prog.follows_weaken (commit_sourced _ (Or.inl ⟨?_, ?_⟩)) fun _ _ later =>
        (List.prefix_append _ _).trans later
      · exact ⟨request, _, created, rfl, List.mem_append_left _ (seen.outer _ _ replied), rfl⟩
      · intro id' flow' member
        rw [List.mem_append, List.mem_singleton] at member
        rcases member with old | new
        · exact seen.unwritten fresh id' flow' old
        · cases new
  | markCallbackReceived request =>
    obtain ⟨transactionId, number⟩ := request
    cases transactionId with
    | none => exact List.prefix_refl _
    | some id =>
      refine Prog.follows_op trivial fun (found : Option ExampleConfirmationFlow) => ?_
      cases found with
      | none => exact List.prefix_append _ _
      | some existing =>
        refine Prog.follows_op trivial fun (c : DateTime) => Prog.follows_op trivial
          fun (t : DateTime) => Prog.follows_op (Or.inr ⟨existing, by simp [Found], ?_⟩) fun _ => ?_
        · exact ⟨rfl, rfl, rfl, rfl, rfl⟩
        · simp only [List.append_assoc]
          exact List.prefix_append _ _
  | markManualStatus id status =>
    refine Prog.follows_op trivial fun (found : Option ExampleConfirmationFlow) => ?_
    cases found with
    | none => exact List.prefix_append _ _
    | some existing =>
      by_cases waits : status = .unhandled
      · subst waits
        refine Prog.follows_op trivial fun (t : DateTime) =>
          Prog.follows_op (Or.inr ⟨existing, by simp [Found], ?_⟩) fun _ => ?_
        · exact ⟨rfl, rfl, rfl, rfl, rfl⟩
        · simp only [List.append_assoc]
          exact List.prefix_append _ _
      · simp only [waits, if_false]
        refine Prog.follows_op trivial fun (c : DateTime) => Prog.follows_op trivial
          fun (t : DateTime) => Prog.follows_op (Or.inr ⟨existing, by simp [Found], ?_⟩) fun _ => ?_
        · exact ⟨rfl, rfl, rfl, rfl, rfl⟩
        · simp only [List.append_assoc]
          exact List.prefix_append _ _

theorem task_sourced_access (site : Site) (task : FacadeTask) :
    ((task.program site).interp withAccesses).Obeys (SourcedAccess site task) [] := by
  refine Prog.obeys_interp (R := SeenAs) ?_ ?_ (task_sourced site task)
  · intro past done e seen sourced
    cases e with
    | inl call =>
      exact Prog.follows_weaken (call_sourced seen call sourced) fun _ _ later a _ =>
        seen_as_call seen later call a
    | inr e =>
      refine Prog.follows_op ?_ fun a b same => ?_
      · match e with
        | .inl (.callToConfirm request) => exact requested_seen seen sourced
        | .inl (.checkConfirmation _) => trivial
        | .inl (.decide _ _) => trivial
        | .inl (.sendCallback _) => trivial
        | .inr _ => trivial
      · cases same
        exact seen_as_outer seen e a
  · exact ⟨fun _ _ member => absurd member List.not_mem_nil,
      fun _ _ _ member => absurd member List.not_mem_nil⟩

end Accesses

/-- The record a start wrote for the transaction RusAuth had named. -/
def Origin (tr : OuterTrace StoreSig ι) (id : Str) (origin : ExampleConfirmationFlow) : Prop :=
  ∃ i request, ∃ response : RusAuthCallToConfirmResponse, ∃ createdOn,
    response.transactionId = some id ∧
    (i, ⟨.inr (.inl (.callToConfirm request)), Except.ok response⟩) ∈ tr ∧
    (i, ⟨.inl (.inl (.put id origin)), ()⟩) ∈ tr ∧ origin = newFlow id response request createdOn

/-- The record of the transaction is in the journal, or was written or read. -/
def Seen (journal : Journal) (tr : OuterTrace StoreSig ι) (id : Str)
    (flow : ExampleConfirmationFlow) : Prop :=
  journal.lookup id = some flow ∨ (∃ i, (i, ⟨.inl (.inl (.put id flow)), ()⟩) ∈ tr) ∨
    ∃ i, (i, ⟨.inl (.inl (.get id)), some flow⟩) ∈ tr

structure Origins (issued : ς → Str → Prop) (s : App ς) (tr : OuterTrace StoreSig ι) : Prop where
  ids : IdHistory issued s.2.1 tr
  seen : ∀ id flow, Seen s.1 tr id flow → ∃ origin, Origin tr id origin ∧ SameOrigin flow origin
  one : ∀ id f g, Origin tr id f → Origin tr id g → SameOrigin f g

theorem same_origin_trans {f g h : ExampleConfirmationFlow} (left : SameOrigin f g)
    (right : SameOrigin g h) : SameOrigin f h :=
  ⟨left.1.trans right.1, left.2.trans right.2, left.3.trans right.3, left.4.trans right.4,
    left.5.trans right.5⟩

theorem same_origin_symm {f g : ExampleConfirmationFlow} (same : SameOrigin f g) :
    SameOrigin g f := ⟨same.1.symm, same.2.symm, same.3.symm, same.4.symm, same.5.symm⟩

theorem origin_later {tr tr' : OuterTrace StoreSig ι} (later : tr <+: tr') {id : Str}
    {origin : ExampleConfirmationFlow} (began : Origin tr id origin) : Origin tr' id origin := by
  obtain ⟨i, request, response, createdOn, names, replied, wrote, is⟩ := began
  exact ⟨i, request, response, createdOn, names, later.subset replied, later.subset wrote, is⟩

section Steps
variable {rusAuth : Semantics rusAuthSig ς} {issued : ς → Str → Prop} {site : Site}
  {tasks : ι → FacadeTask} {s s' : App ς} {tr : OuterTrace StoreSig ι} {i : ι} {e : FineSig.Op}
  {a : FineSig.Answer e}

theorem seen_step (did : fineEffect rusAuth s e a s') {id : Str} {flow : ExampleConfirmationFlow}
    (seen : Seen s'.1 (tr ++ [(i, ⟨e, a⟩)]) id flow) :
    Seen s.1 tr id flow ∨ e = .inl (.inl (.put id flow)) := by
  have split : ∀ {l : Label FineSig ι}, l ∈ tr ++ [(i, ⟨e, a⟩)] → l ∈ tr ∨ l = (i, ⟨e, a⟩) := by
    intro l member
    simpa using member
  rcases seen with stored | ⟨j, wrote⟩ | ⟨j, read⟩
  · rcases journal_step did with same | ⟨id', flow', rfl, wrote⟩
    · rw [same] at stored
      exact Or.inl (Or.inl stored)
    · rw [wrote] at stored
      rcases lookup_insert_cases stored with ⟨rfl, rfl⟩ | ⟨_, before⟩
      · exact Or.inr rfl
      · exact Or.inl (Or.inl before)
  · rcases split wrote with old | new
    · exact Or.inl (Or.inr (Or.inl ⟨j, old⟩))
    · cases new
      exact Or.inr rfl
  · rcases split read with old | new
    · exact Or.inl (Or.inr (Or.inr ⟨j, old⟩))
    · cases new
      exact Or.inl (Or.inl (effect_get did.1).1.symm)

/-- An origin on record after a step was on record before; or the step is the start's
    write; or it is the answer to a start, which nobody can have written for yet. -/
theorem origin_step (ids : IssuesOnce rusAuth issued) (origins : Origins issued s tr)
    (did : fineEffect rusAuth s e a s') {id : Str} {f : ExampleConfirmationFlow}
    (began : Origin (tr ++ [(i, ⟨e, a⟩)]) id f) :
    Origin tr id f ∨ e = .inl (.inl (.put id f)) := by
  obtain ⟨j, request, response, createdOn, names, replied, wrote, is⟩ := began
  rw [List.mem_append, List.mem_singleton] at replied wrote
  rcases wrote with wrote | now
  · rcases replied with replied | now
    · exact Or.inl ⟨j, request, response, createdOn, names, replied, wrote, is⟩
    · cases now
      obtain ⟨origin, ⟨k, request', response', _, names', replied', _⟩, _⟩ :=
        origins.seen id f (Or.inr (Or.inl ⟨_, wrote⟩))
      have known := origins.ids.known k id request' ⟨response', names', replied'⟩
      exact absurd known (ids.fresh _ _ _ _ id did.1.1 names).1
  · cases now
    exact Or.inr rfl

variable [DecidableEq ι]

theorem no_origin_yet (origins : Origins issued s tr) {id : Str} {flow f : ExampleConfirmationFlow}
    (writes : StartWrites (own i tr) id flow)
    (unwritten : ∀ id' flow', (⟨.inl (.inl (.put id' flow')), ()⟩ : Performed FineSig) ∉ own i tr) :
    ¬ Origin tr id f := by
  rintro ⟨j, request', response', _, names', replied', wrote, _⟩
  obtain ⟨request, response, _, names, replied, _⟩ := writes
  obtain ⟨rfl, _⟩ := origins.ids.once j i id request' request ⟨response', names', replied'⟩
    ⟨response, names, mem_own.mp replied⟩
  exact unwritten id f (mem_own.mpr wrote)

theorem origins_step (ids : IssuesOnce rusAuth issued) (origins : Origins issued s tr)
    (sourced : SourcedAccess site (tasks i) (own i tr) e) (did : fineEffect rusAuth s e a s') :
    Origins issued s' (tr ++ [(i, ⟨e, a⟩)]) := by
  have later : tr <+: tr ++ [(i, ⟨e, a⟩)] := List.prefix_append _ _
  have copied : ∀ {id flow old}, Found (own i tr) id old → SameOrigin flow old →
      ∃ origin, Origin tr id origin ∧ SameOrigin flow origin := by
    intro id flow old found same
    obtain ⟨origin, began, from'⟩ := origins.seen id old (Or.inr (Or.inr ⟨i, mem_own.mp found⟩))
    exact ⟨origin, began, same_origin_trans same from'⟩
  constructor
  case ids => exact id_history_step ids origins.ids did
  case seen =>
    intro id flow seen
    rcases seen_step did seen with before | rfl
    · obtain ⟨origin, began, same⟩ := origins.seen id flow before
      exact ⟨origin, origin_later later began, same⟩
    · rcases sourced with ⟨⟨request, response, createdOn, names, replied, rfl⟩, _⟩ | ⟨_, found, same⟩
      · have wrote := List.mem_append_right tr (List.mem_cons_self (a := (i, ⟨_, a⟩)) (l := []))
        exact ⟨_, ⟨i, request, response, createdOn, names, later.subset (mem_own.mp replied),
          wrote, rfl⟩, same_origin_refl _⟩
      · obtain ⟨origin, began, from'⟩ := copied found same
        exact ⟨origin, origin_later later began, from'⟩
  case one =>
    -- the record a step writes agrees with every origin there is
    have agrees : ∀ {id f g}, Origin tr id f → e = .inl (.inl (.put id g)) → SameOrigin f g := by
      rintro id f g began rfl
      rcases sourced with ⟨writes, unwritten⟩ | ⟨_, found, same⟩
      · exact absurd began (no_origin_yet origins writes unwritten)
      · obtain ⟨origin, began', from'⟩ := copied found same
        exact same_origin_trans (origins.one id f origin began began') (same_origin_symm from')
    intro id f g left right
    rcases origin_step ids origins did left with left | is
    · rcases origin_step ids origins did right with right | is
      · exact origins.one id f g left right
      · exact agrees left is
    · rcases origin_step ids origins did right with right | is'
      · exact same_origin_symm (agrees right is)
      · cases is.symm.trans is'
        exact same_origin_refl f

end Steps

section Runs
variable [DecidableEq ι] {rusAuth : Semantics rusAuthSig ς} {issued : ς → Str → Prop} {site : Site}
  {tasks : ι → FacadeTask} {service : ς} {circuits : Circuits} {tr : OuterTrace StoreSig ι}
  {q : FacadePool ς ι}

theorem origins_run (ids : IssuesOnce rusAuth issued)
    (run : Exec (fun _ => fineEffect rusAuth) (facadePool site tasks (∅, service, circuits)) tr q) :
    Origins issued q.shared tr := by
  refine exec_invariant (fun i => task_sourced_access site (tasks i)) ?_ ?_ run
  · refine ⟨⟨?_, ?_⟩, ?_, ?_⟩
    · rintro i id request ⟨_, _, ⟨⟩⟩
    · rintro i j id request request' ⟨_, _, ⟨⟩⟩
    · rintro id flow (stored | ⟨i, ⟨⟩⟩ | ⟨i, ⟨⟩⟩)
      simp [facadePool, AList.lookup_empty] at stored
    · rintro id f g ⟨_, _, _, _, _, ⟨⟩, _⟩
  · intro s tr i e a s' origins sourced did
    exact origins_step ids origins sourced did

/-- RusAuth has answered the request of the start with the id, and the request is
    what the facade was called with or the form of the page as the page has read it. -/
def AskedFor (site : Site) (tasks : ι → FacadeTask) (tr : OuterTrace StoreSig ι) (id : Str)
    (request : RusAuthCallToConfirmRequest) (response : RusAuthCallToConfirmResponse) : Prop :=
  ∃ i, response.transactionId = some id ∧
    (i, ⟨.inr (.inl (.callToConfirm request)), Except.ok response⟩) ∈ tr ∧
    Requested site (own i tr) request (tasks i)

theorem requested_later {site : Site} {past past' : List (Performed FineSig)}
    (later : past <+: past') {request : RusAuthCallToConfirmRequest} {task : FacadeTask}
    (asks : Requested site past request task) : Requested site past' request task := by
  match task with
  | .app (.submit page) =>
    obtain ⟨model, read, is⟩ := asks
    exact ⟨model, later.subset read, is⟩
  | .start _ _ _ _ => exact asks

/-- All that is ever stored, written or read under an id goes back to one request: it
    carries the number and the webhook that RusAuth was asked with and the number
    RusAuth answered with, and there is one creation date to it. -/
theorem records_of_one_request (ids : IssuesOnce rusAuth issued)
    (run : Exec (fun _ => fineEffect rusAuth) (facadePool site tasks (∅, service, circuits)) tr q)
    {id : Str} {flow : ExampleConfirmationFlow} (seen : Seen q.shared.1 tr id flow) :
    ∃ request response, AskedFor site tasks tr id request response ∧
      (∀ request' response', AskedFor site tasks tr id request' response' →
        request' = request ∧ response' = response) ∧
      ∀ flow', Seen q.shared.1 tr id flow' →
        SameOrigin flow' (newFlow id response request flow.createdOn) := by
  have origins := origins_run ids run
  obtain ⟨origin, began, same⟩ := origins.seen id flow seen
  obtain ⟨i, request, response, createdOn, names, replied, wrote, rfl⟩ := began
  refine ⟨request, response, ⟨i, names, replied, ?_⟩, ?_, ?_⟩
  · obtain ⟨xs, ys, rfl⟩ := List.append_of_mem replied
    have asks : Requested site (own i xs) request (tasks i) :=
      exec_obeys_at run (task_sourced_access site (tasks i))
    rw [own_append]
    exact requested_later (List.prefix_append _ _) asks
  · rintro request' response' ⟨j, names', replied', _⟩
    have one := answered_once ids run replied replied' ⟨request, response, names, rfl⟩
      ⟨request', response', names', rfl⟩
    cases one
    exact ⟨rfl, rfl⟩
  · intro flow' seen'
    obtain ⟨origin', began', same'⟩ := origins.seen id flow' seen'
    have agree := same_origin_trans same' (origins.one id origin' _ began'
      ⟨i, request, response, createdOn, names, replied, wrote, rfl⟩)
    exact ⟨agree.1, agree.2, agree.3, agree.4, agree.5.trans same.5.symm⟩

end Runs

/- The form is edited while the request it was read for is on its way. -/
namespace EditedForm

inductive Party where
  | filling
  | sending
  | editing
  | webhook
  deriving DecidableEq

def tasks : Party → FacadeTask
  | .filling => .app (.edit Sample.page ⟨lit "79001234567", 10⟩)
  | .sending => .app (.submit Sample.page)
  | .editing => .app (.edit Sample.page ⟨lit "5", 99⟩)
  | .webhook => .app (.callback (Sample.callback (lit "5")))

def schedule : List Party :=
  .filling :: List.replicate 6 .sending ++ [.editing] ++ List.replicate 7 .sending ++
    List.replicate 6 .webhook

def start : FacadePool Nat Party := facadePool Sample.site tasks (∅, 0, .initial)

def after : OuterTrace StoreSig Party × FacadePool Nat Party :=
  replay SecondStart.answers start schedule

theorem run : Exec (fun _ => fineEffect SecondStart.counting) start after.1 after.2 :=
  replay_exec (fun _ => Sample.answering_behaves _) _ _

def stored : ExampleConfirmationFlow :=
  callbackUpdate (newFlow [116] ⟨some [116], none⟩
    (callToConfirmRequest Sample.site (lit "79001234567") [] 10) 0) 0 0

end EditedForm

theorem edited_form_not_recorded :
    ∃ request response, AskedFor Sample.site EditedForm.tasks EditedForm.after.1 [116] request
      response ∧ SameOrigin EditedForm.stored (newFlow [116] response request 0) := by
  have seen : Seen EditedForm.after.2.shared.1 EditedForm.after.1 [116] EditedForm.stored :=
    Or.inl (by decide)
  obtain ⟨request, response, asked, _, same⟩ :=
    records_of_one_request SecondStart.issues_once EditedForm.run seen
  exact ⟨request, response, asked, same _ seen⟩

end RusAuthExample
