import RusAuthExample.BusyGuard
import RusAuthExample.CallbackUpdates
import RusAuthExample.ReportedSuccess

/-!
Requests to the callback endpoint that come to nothing: they do not pass the filter,
do not bind, or name a transaction that the journal does not have. Whatever they
contain and whenever they come, a run without them is a run as well, in which all
others do the same and which ends in the same state.
-/
namespace RusAuthExample
open Utf16Text OperationPrograms InterleavedRuns KeyedMemory

variable {ς ι : Type}

def Harmless (request : CallbackRequest) : FineSig.Op → Prop
  | .inl (.inl (.get _)) => True
  | .inl (.inr _) => True
  | .inr (.inl (.sendCallback sent)) => sent = request
  | .inr (.inr (.receive _)) => True
  | _ => False

def Wrote (past : List (Performed FineSig)) : Prop :=
  ∃ id flow, (⟨.inl (.inl (.put id flow)), ()⟩ : Performed FineSig) ∈ past

/-- A request is harmless until it writes, and it writes only if it is accepted. -/
def WritesFirst (site : Site) (request : CallbackRequest) (past : List (Performed FineSig))
    (e : FineSig.Op) : Prop :=
  Wrote past ∨ Harmless request e ∨
    (∃ id flow, e = .inl (.inl (.put id flow))) ∧ ∃ body, Accepted site request body

/-- What has written is answered Ok, unless a handler of the notifier fails. -/
def AnswersWriting (outcome : Except Exn (Option ActionResult))
    (done : List (Performed FineSig)) : Prop :=
  Wrote done → outcome = .ok (some .ok) ∨ ∃ x, outcome = .error x

theorem wrote_later {past past' : List (Performed FineSig)} (later : past <+: past')
    (wrote : Wrote past) : Wrote past' := by
  obtain ⟨id, flow, member⟩ := wrote
  exact ⟨id, flow, later.subset member⟩

theorem wrote_harmless {request : CallbackRequest} {past : List (Performed FineSig)} {e : FineSig.Op}
    (harmless : Harmless request e) (a : FineSig.Answer e) (wrote : Wrote (past ++ [⟨e, a⟩])) :
    Wrote past := by
  obtain ⟨id, flow, member⟩ := wrote
  rw [List.mem_append, List.mem_singleton] at member
  rcases member with before | now
  · exact ⟨id, flow, before⟩
  · cases now
    exact harmless.elim

theorem not_wrote_nil : ¬ Wrote [] := by
  rintro ⟨id, flow, ⟨⟩⟩

section Request
variable {site : Site} {request : CallbackRequest} {past : List (Performed FineSig)}

theorem harmless_op {A : Type} {Q : Except Exn A → List (Performed FineSig) → Prop} {e : FineSig.Op}
    {next : FineSig.Answer e → Prog FineSig Exn A} (harmless : Harmless request e)
    (unwritten : ¬ Wrote past)
    (rest : ∀ a, ¬ Wrote (past ++ [⟨e, a⟩]) →
      (next a).Follows (WritesFirst site request) Q (past ++ [⟨e, a⟩])) :
    (Prog.op e next).Follows (WritesFirst site request) Q past :=
  Prog.follows_op (Or.inr (Or.inl harmless)) fun a =>
    rest a fun wrote => unwritten (wrote_harmless harmless a wrote)

theorem mark_writes_first {body : RusAuthConfirmationWebHookRequest}
    (accepted : Accepted site request body) (unwritten : ¬ Wrote past) :
    (withAccesses (.inl (.markCallbackReceived body))).Follows (WritesFirst site request)
      (fun r done => ∃ outcome, r = .ok outcome ∧
        (Wrote done ↔ ∃ flow, outcome = .ok (some flow))) past := by
  obtain ⟨transactionId, number⟩ := body
  cases transactionId with
  | none => exact ⟨_, rfl, iff_of_false unwritten (by rintro ⟨flow, ⟨⟩⟩)⟩
  | some id =>
    refine harmless_op trivial unwritten fun (found : Option ExampleConfirmationFlow) sofar => ?_
    cases found with
    | none => exact ⟨_, rfl, iff_of_false sofar (by rintro ⟨flow, ⟨⟩⟩)⟩
    | some existing =>
      refine harmless_op trivial sofar fun (c : DateTime) sofar => ?_
      refine harmless_op trivial sofar fun (t : DateTime) sofar => ?_
      refine Prog.follows_op (Or.inr (Or.inr ⟨⟨id, _, rfl⟩, _, accepted⟩)) fun _ => ?_
      exact ⟨_, rfl, iff_of_true ⟨id, _, List.mem_append_right _ (List.mem_singleton_self _)⟩ ⟨_, rfl⟩⟩

theorem publish_after_writing (flow : ExampleConfirmationFlow) (wrote : Wrote past) :
    (((publishUpdate (updateOf flow) .none).bind fun _ => .ret (some ActionResult.ok)).interp
      withAccesses).Follows (WritesFirst site request) AnswersWriting past := by
  have any : ((publishUpdate (updateOf flow) .none).interp withAccesses).Uses fun _ => True :=
    fine_uses (P := fun _ => True) (Prog.uses_weaken (publish_local _ _) fun _ _ => trivial)
      (fun _ => trivial) fun _ _ => trivial
  refine Prog.follows_interp_bind (Q := fun _ done => Wrote done) ?_ ?_ ?_
  · refine Prog.follows_invariant any wrote fun done e now _ => ⟨Or.inl now, fun a => ?_⟩
    exact wrote_later (List.prefix_append _ _) now
  · exact fun _ _ _ _ => Or.inl rfl
  · exact fun x _ _ _ => Or.inr ⟨x, rfl⟩

/-- All a request to the endpoint does: it reads, it may write once, and only then does
    it touch anything else. -/
theorem request_writes_first (site : Site) (request : CallbackRequest) :
    (((AppTask.callback request).program site).interp withAccesses).Follows
      (WritesFirst site request) AnswersWriting [] := by
  refine harmless_op rfl not_wrote_nil fun _ sofar => harmless_op trivial sofar fun _ sofar => ?_
  show (((callbackEndpoint site request).bind fun result => .ret (some result)).interp
    withAccesses).Follows _ _ _
  cases passes : onAuthorization site.callbackOptions request.authorization with
  | some result =>
    rw [callbackEndpoint, passes]
    exact fun wrote => absurd wrote sofar
  | none =>
    cases binds : request.body with
    | none =>
      rw [callbackEndpoint, passes, binds]
      exact fun wrote => absurd wrote sofar
    | some body =>
      rw [callbackEndpoint, passes, binds]
      refine Prog.follows_bind (mark_writes_first ⟨passes, binds⟩ sofar) ?_ ?_
      · rintro outcome done ⟨outcome', same, wrote⟩
        cases same
        rcases outcome with x | _ | flow
        · exact fun now => Or.inr ⟨x, rfl⟩
        · intro now
          obtain ⟨flow, ⟨⟩⟩ := wrote.mp now
        · have published : ((publishAsync (updateOf flow) .none).onRight.bind fun _ =>
              .ret ActionResult.ok).interp withPages =
              (publishUpdate (updateOf flow) .none).bind fun _ => .ret ActionResult.ok :=
            Prog.interp_bind _ _ _
          show (((Prog.interp withPages ((publishAsync (updateOf flow) .none).onRight.bind fun _ =>
            .ret ActionResult.ok)).bind fun result => .ret (some result)).interp
              withAccesses).Follows _ _ _
          rw [published, Prog.bind_assoc]
          exact publish_after_writing flow (wrote.mpr ⟨flow, rfl⟩)
      · rintro x done ⟨outcome, ⟨⟩, _⟩

end Request

section Runs
variable [DecidableEq ι] {rusAuth : Semantics rusAuthSig ς} {site : Site} {tasks : ι → AppTask}
  {s : App ς} {tr : OuterTrace StoreSig ι} {q : FinePool ς ι} {i : ι}

/-- The task is a request that the filter does not let through or that does not bind, or
    one that has been answered otherwise than Ok. -/
def Refused (site : Site) (task : AppTask) (rest : Prog FineSig Exn (Option ActionResult)) : Prop :=
  ∃ request, task = .callback request ∧ ((∀ body, ¬ Accepted site request body) ∨
    ∃ result, result ≠ .ok ∧ rest = .ret (some result))

theorem wrote_accepted {request : CallbackRequest}
    (run : Exec (fun _ => fineEffect rusAuth) (finePool site tasks s) tr q)
    (obeys : ((finePool site tasks s).task i).Obeys (WritesFirst site request) [])
    (wrote : Wrote (own i tr)) : ∃ body, Accepted site request body := by
  induction run with
  | nil => exact absurd wrote not_wrote_nil
  | @snoc m q tr l before last ih =>
    obtain ⟨j, e, a⟩ := l
    by_cases mine : j = i
    · subst mine
      rw [own_snoc_self] at wrote
      rcases exec_obeys before last obeys with earlier | harmless | ⟨_, accepted⟩
      · exact ih earlier
      · exact ih (wrote_harmless harmless a wrote)
      · exact accepted
    · rw [own_snoc_other (Ne.symm mine)] at wrote
      exact ih wrote

theorem refused_unwritten
    (run : Exec (fun _ => fineEffect rusAuth) (finePool site tasks s) tr q)
    (refused : Refused site (tasks i) (q.task i)) : ¬ Wrote (own i tr) := by
  obtain ⟨request, is, why⟩ := refused
  intro wrote
  have begins := request_writes_first site request
  rw [← is] at begins
  rcases why with stays | ⟨result, other, rest⟩
  · obtain ⟨body, accepted⟩ := wrote_accepted run (Prog.obeys_of_follows begins) wrote
    exact stays body accepted
  · have ends := exec_follows run begins
    rw [rest] at ends
    rcases ends wrote with ok | ⟨x, ⟨⟩⟩
    cases ok
    exact other rfl

theorem harmless_still {request : CallbackRequest} {e : FineSig.Op} {a : FineSig.Answer e}
    {t t' : App ς} (harmless : Harmless request e) (did : fineEffect rusAuth t e a t')
    (outside : ∀ u b u', rusAuth u (.sendCallback request) b u' → u' = u) : t' = t := by
  match e with
  | .inl (.inl (.get _)) => exact Prod.ext (effect_get did.1).2 did.2
  | .inl (.inr _) => exact Prod.ext did.1 did.2
  | .inr (.inl (.sendCallback _)) =>
    obtain rfl := harmless
    exact Prod.ext did.2 (Prod.ext (outside _ _ _ did.1.1) did.1.2)
  | .inr (.inr (.receive _)) =>
    obtain ⟨renders, _, after⟩ := host_answered did
    exact Prod.ext did.2 (Prod.ext did.1.2 after)

/-- A refused request leaves no trace. Without any of them the run is a run, with the
    same steps of all others, their answers included, and the same end. RusAuth does
    not hear of requests that others send in its name. -/
theorem refused_requests_leave_no_trace
    (run : Exec (fun _ => fineEffect rusAuth) (finePool site tasks s) tr q) {refused : ι → Bool}
    (are : ∀ i, refused i = true → Refused site (tasks i) (q.task i))
    (outside : ∀ i request, refused i = true → tasks i = .callback request →
      ∀ t a t', rusAuth t (.sendCallback request) a t' → t' = t) :
    Exec (fun _ => fineEffect rusAuth) (finePool site tasks s) (tr.filter fun l => !refused l.1)
      ⟨q.shared, fun i => if refused i then (finePool site tasks s).task i else q.task i⟩ := by
  refine exec_without run fun l member taken t t' did => ?_
  have unwritten := refused_unwritten run (are l.1 taken)
  obtain ⟨request, is, _⟩ := are l.1 taken
  have begins := request_writes_first site request
  rw [← is] at begins
  obtain ⟨xs, ys, rfl⟩ := List.append_of_mem member
  obtain ⟨i, e, a⟩ := l
  have still : own i (xs ++ (i, ⟨e, a⟩) :: ys) = own i xs ++ ⟨e, a⟩ :: own i ys := by
    simp [own]
  rw [still] at unwritten
  rcases exec_obeys_at run (Prog.obeys_of_follows begins) with earlier | harmless | ⟨writes, _⟩
  · exact absurd (wrote_later (List.prefix_append _ _) earlier) unwritten
  · exact harmless_still harmless did (outside i request taken is)
  · obtain ⟨id, flow, rfl⟩ := writes
    exact absurd ⟨id, flow, List.mem_append_right _ List.mem_cons_self⟩ unwritten

end Runs

/- Somebody without the token sends a request before the one of RusAuth, and RusAuth
   sends one for a transaction that is not there. -/
namespace ForgedRequest

inductive Party where
  | user
  | forger
  | stray
  | webhook
  deriving DecidableEq

def forged : CallbackRequest := ⟨[lit "Bearer guess"], some ⟨some [116], lit "79001234567"⟩⟩

def stray : CallbackRequest := ⟨[lit "Bearer secret"], some ⟨some [117], lit "79001234567"⟩⟩

def tasks : Party → AppTask
  | .user => .submit Sample.page
  | .forger => .callback forged
  | .stray => .callback stray
  | .webhook => .callback (Sample.callback [55])

def schedule : List Party :=
  [.forger, .stray] ++ List.replicate 13 .user ++ [.webhook, .forger, .stray, .stray] ++
    List.replicate 5 .webhook

def refused : Party → Bool
  | .forger => true
  | .stray => true
  | _ => false

def after : OuterTrace StoreSig Party × FinePool Nat Party :=
  replay SecondStart.answers (finePool Sample.site tasks (∅, 0, .initial)) schedule

theorem run : Exec (fun _ => fineEffect SecondStart.counting)
    (finePool Sample.site tasks (∅, 0, .initial)) after.1 after.2 :=
  replay_exec (fun _ => Sample.answering_behaves _) _ _

theorem not_accepted (body : RusAuthConfirmationWebHookRequest) :
    ¬ Accepted Sample.site forged body := by
  intro accepted
  exact absurd accepted.passes (by decide)

end ForgedRequest

theorem forged_request_leaves_no_trace :
    Exec (fun _ => fineEffect SecondStart.counting)
      (finePool Sample.site ForgedRequest.tasks (∅, 0, .initial))
      (ForgedRequest.after.1.filter fun l => !ForgedRequest.refused l.1)
      ⟨ForgedRequest.after.2.shared, fun i => if ForgedRequest.refused i then
        (finePool Sample.site ForgedRequest.tasks (∅, 0, .initial)).task i
        else ForgedRequest.after.2.task i⟩ := by
  refine refused_requests_leave_no_trace ForgedRequest.run ?_ ?_
  · intro i is
    cases i with
    | user => cases is
    | webhook => cases is
    | forger => exact ⟨_, rfl, Or.inl ForgedRequest.not_accepted⟩
    | stray => exact ⟨_, rfl, Or.inr ⟨.notFound, by decide, rfl⟩⟩
  · intro i request _ _ t a t' did
    cases did
    rfl

end RusAuthExample
