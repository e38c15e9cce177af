import RusAuthExample.IssuedTransactions
import RusAuthExample.StoreInvariants

/-!
Nothing is confirmed without evidence in the past of the run. The accesses to
the journal, its clock readings, the replies of RusAuth and everything in the
host interleave freely; RusAuth may answer as it likes and anybody may send
anything to the callback endpoint.
-/
namespace RusAuthExample
open Utf16Text OperationPrograms InterleavedRuns RelyGuarantee KeyedMemory

variable {ι ς : Type} {S : Signature}

/-- A callback naming the transaction reached the endpoint, and the filter let it
    through. -/
def LetThrough (site : Site) (tr : OuterTrace S ι) (transactionId : Str) : Prop :=
  ∃ i request body, (i, ⟨.inr (.inr (.receive request)), ()⟩) ∈ tr ∧
    Accepted site request body ∧ body.transactionId = some transactionId

def CheckedSuccess (tr : OuterTrace S ι) (transactionId : Str) : Prop :=
  ∃ i request, (i, ⟨.inr (.inl (.checkConfirmation request)), Except.ok ⟨.success⟩⟩) ∈ tr ∧
    request.transactionId = transactionId

/-- What a task has seen of a transaction that it confirms: its callback passed
    the filter and names the transaction, or its check, sent with the number its
    form had, names the transaction and was answered with Success. -/
def OwnEvidence (site : Site) (task : AppTask) (i : ι) (tr : OuterTrace S ι) (transactionId : Str) :
    Prop :=
  (∃ request body, task = .callback request ∧ (i, ⟨.inr (.inr (.receive request)), ()⟩) ∈ tr ∧
    Accepted site request body ∧ body.transactionId = some transactionId) ∨
  ∃ page model request, task = .checkStatus page ∧
    (i, ⟨.inr (.inr (.model page)), model⟩) ∈ tr ∧
    (i, ⟨.inr (.inl (.checkConfirmation request)), Except.ok ⟨.success⟩⟩) ∈ tr ∧
    request.transactionId = transactionId ∧ request.phoneNumber = model.phoneNumber

/-- What a flow claims has happened. -/
structure Evidenced (site : Site) (tr : OuterTrace S ι) (transactionId : Str)
    (flow : ExampleConfirmationFlow) : Prop where
  named : flow.transactionId = transactionId
  number : ∃ i request, Answered tr i transactionId request ∧
    flow.clientPhoneNumber = request.phoneNumber
  success : flow.status = .success →
    LetThrough site tr transactionId ∨ CheckedSuccess tr transactionId
  callback : flow.callbackReceivedOn ≠ none → LetThrough site tr transactionId

/-- Whoever writes a confirmed flow has seen the evidence for it. -/
structure Supported (site : Site) (task : AppTask) (i : ι) (tr : OuterTrace S ι)
    (transactionId : Str) (flow : ExampleConfirmationFlow) : Prop where
  evidenced : Evidenced site tr transactionId flow
  own : flow.status = .success → OwnEvidence site task i tr transactionId

section Later
variable {site : Site} {task : AppTask} {i : ι} {tr tr' : OuterTrace S ι} {id : Str}
  {flow : ExampleConfirmationFlow}

theorem let_through_later (later : tr <+: tr') (evidence : LetThrough site tr id) :
    LetThrough site tr' id := by
  obtain ⟨i, request, body, member, accepted, names⟩ := evidence
  exact ⟨i, request, body, later.subset member, accepted, names⟩

theorem checked_later (later : tr <+: tr') (evidence : CheckedSuccess tr id) :
    CheckedSuccess tr' id := by
  obtain ⟨i, request, member, names⟩ := evidence
  exact ⟨i, request, later.subset member, names⟩

theorem own_evidence_later (later : tr <+: tr') (evidence : OwnEvidence site task i tr id) :
    OwnEvidence site task i tr' id := by
  rcases evidence with ⟨request, body, is, member, rest⟩ |
    ⟨page, model, request, is, form, reply, rest⟩
  · exact Or.inl ⟨request, body, is, later.subset member, rest⟩
  · exact Or.inr ⟨page, model, request, is, later.subset form, later.subset reply, rest⟩

theorem evidenced_later (later : tr <+: tr') (evidenced : Evidenced site tr id flow) :
    Evidenced site tr' id flow where
  named := evidenced.named
  number := by
    obtain ⟨i, request, answered, same⟩ := evidenced.number
    exact ⟨i, request, answered_later later answered, same⟩
  success success := (evidenced.success success).imp (let_through_later later) (checked_later later)
  callback received := let_through_later later (evidenced.callback received)

theorem supported_later (later : tr <+: tr') (supported : Supported site task i tr id flow) :
    Supported site task i tr' id flow :=
  ⟨evidenced_later later supported.evidenced,
    fun success => own_evidence_later later (supported.own success)⟩

theorem own_evidence_shows (evidence : OwnEvidence site task i tr id) :
    LetThrough site tr id ∨ CheckedSuccess tr id := by
  rcases evidence with ⟨request, body, _, member, rest⟩ | ⟨_, _, request, _, _, reply, names, _⟩
  · exact Or.inl ⟨i, request, body, member, rest⟩
  · exact Or.inr ⟨i, request, reply, names⟩

end Later

section Writers
variable {site : Site} {task : AppTask} {i : ι} {tr : OuterTrace S ι} {id : Str}
  {flow : ExampleConfirmationFlow}

theorem supported_new {request : RusAuthCallToConfirmRequest} (answered : Answered tr i id request)
    (response : RusAuthCallToConfirmResponse) (created : DateTime) :
    Supported site task i tr id (newFlow id response request created) :=
  ⟨⟨rfl, ⟨i, request, answered, rfl⟩, nofun, fun received => absurd rfl received⟩, nofun⟩

theorem supported_callback {http : CallbackRequest} {body : RusAuthConfirmationWebHookRequest}
    (evidenced : Evidenced site tr id flow) (is : task = .callback http)
    (received : (i, ⟨.inr (.inr (.receive http)), ()⟩) ∈ tr) (accepted : Accepted site http body)
    (names : body.transactionId = some id) (c t : DateTime) :
    Supported site task i tr id (callbackUpdate flow c t) := by
  have through : LetThrough site tr id := ⟨i, http, body, received, accepted, names⟩
  exact ⟨⟨evidenced.named, evidenced.number, fun _ => Or.inl through, fun _ => through⟩,
    fun _ => Or.inl ⟨http, body, is, received, accepted, names⟩⟩

theorem supported_manual {status : CallConfirmationStatus} (evidenced : Evidenced site tr id flow)
    (own : status = .success → OwnEvidence site task i tr id) (c : Option DateTime) (t : DateTime) :
    Supported site task i tr id (manualUpdate flow status c t) :=
  ⟨⟨evidenced.named, evidenced.number, fun success => own_evidence_shows (own success),
    evidenced.callback⟩, own⟩

end Writers

section Fine
variable {rusAuth : Semantics rusAuthSig ς} {site : Site} {tasks : ι → AppTask}

abbrev Past (ς ι : Type) := App ς × OuterTrace StoreSig ι

abbrev pastEffect (rusAuth : Semantics rusAuthSig ς) (i : ι) : Semantics FineSig (Past ς ι) :=
  logged (fun _ => fineEffect rusAuth) i

def EvidencedIn (site : Site) (s : Past ς ι) (id : Str) (flow : ExampleConfirmationFlow) : Prop :=
  Evidenced site s.2 id flow

def SupportedIn (site : Site) (task : AppTask) (i : ι) (s : Past ς ι) (id : Str)
    (flow : ExampleConfirmationFlow) : Prop := Supported site task i s.2 id flow

abbrev AllEvidenced (site : Site) : Past ς ι → Prop :=
  AllGood (fun s => s.1.1) (EvidencedIn site)

/-- The guarantee of task `i`: it writes supported records only. -/
def WritesSupported (site : Site) (tasks : ι → AppTask) (i : ι) : Semantics FineSig (Past ς ι) :=
  fun s e _ _ => ∀ id flow, e = .inl (.inl (.put id flow)) → SupportedIn site (tasks i) i s id flow

theorem evidence_rules (task : AppTask) (i : ι) :
    StoreRules (fun s e a s' => pastEffect rusAuth i s (.inl e) a s') (fun s => s.1.1) Extends
      (EvidencedIn (ς := ς) site) (SupportedIn site task i) where
  lasting _ _ _ _ later evidenced := evidenced_later later evidenced
  mayLast _ _ _ _ later supported := supported_later later supported
  good _ _ _ supported := supported.evidenced
  get s id a s' did := by
    obtain ⟨found, same⟩ := effect_get did.1.1
    exact ⟨extends_logged did, same, found⟩
  put s id flow a s' did := ⟨extends_logged did, effect_put did.1.1⟩
  clock s t s' did := ⟨extends_logged did, did.1.1⟩

def RecordedBy (i : ι) (past : List (Performed AppSig)) (s : Past ς ι) : Prop :=
  ∀ e a, (⟨.inr e, a⟩ : Performed AppSig) ∈ past → (i, ⟨.inr e, a⟩) ∈ s.2

theorem writes_supported {i : ι} {call : StoreCall} {past : List (Performed AppSig)} {s : Past ς ι}
    (justified : Justified site (tasks i) past (.inl call)) (recorded : RecordedBy i past s) :
    WritesAllowed (fun s e a s' => pastEffect rusAuth i s (.inl e) a s') Extends
      (EvidencedIn site) (SupportedIn site (tasks i) i) s call := by
  have after : ∀ {s s' : Past ς ι} {t : DateTime},
      Reads (fun s e a s' => pastEffect rusAuth i s (.inl e) a s') Extends s t s' →
      s.2 <+: s'.2 := by
    rintro s s' t ⟨m, later, did⟩
    exact later.trans (extends_logged did)
  cases call with
  | start response request =>
    obtain ⟨_, _, replied⟩ := justified
    intro id created s' names read
    have answered : Answered s.2 i id request := ⟨response, names, recorded _ _ replied⟩
    exact supported_new (answered_later (after read) answered) response created
  | get id => trivial
  | markCallbackReceived body =>
    obtain ⟨_, request, is, accepted, _, received⟩ := justified
    intro id flow c t s₁ s₂ s₃ names later evidenced readC readT
    have reach := (after readC).trans (after readT)
    exact supported_callback (evidenced_later reach evidenced) is
      ((later.trans reach).subset (recorded _ _ received)) accepted names c t
  | markManualStatus id status =>
    obtain ⟨_, page, model, request, is, names, number, read, answered⟩ := justified
    intro flow s₁ later evidenced
    have own : status = .success → OwnEvidence site (tasks i) i s.2 id := by
      rintro rfl
      exact Or.inr ⟨page, model, request, is, recorded _ _ read, recorded _ _ answered, names,
        number⟩
    refine ⟨fun _ t s₂ read => ?_, fun _ c t s₂ s₃ readC readT => ?_⟩
    · exact supported_manual (evidenced_later (after read) evidenced)
        (fun success => own_evidence_later (later.trans (after read)) (own success)) _ t
    · have reach := (after readC).trans (after readT)
      exact supported_manual (evidenced_later reach evidenced)
        (fun success => own_evidence_later (later.trans reach) (own success)) _ t

/-- What an operation leaves on record: store calls need none, the trace has the rest. -/
def OnRecord (i : ι) : (e : AppSig.Op) → AppSig.Answer e → Past ς ι → Prop
  | .inl _, _, _ => True
  | .inr e, a, s => (i, ⟨.inr e, a⟩) ∈ s.2

theorem record_grows (i : ι) (past : List (Performed AppSig)) (s t : Past ς ι) (e : AppSig.Op)
    (a : AppSig.Answer e) (recorded : RecordedBy i past s) (later : Extends s t)
    (post : OnRecord i e a t) : RecordedBy i (past ++ [⟨e, a⟩]) t := by
  intro f b member
  rw [List.mem_append, List.mem_singleton] at member
  rcases member with old | new
  · exact extends_mem later (recorded f b old)
  · cases new
    exact post

theorem operation_keeps_evidence (i : ι) (e : AppSig.Op) (past : List (Performed AppSig))
    (s : Past ς ι) (justified : Justified site (tasks i) past e) (recorded : RecordedBy i past s) :
    Safe (pastEffect rusAuth i) (AllEvidenced site) Extends (WritesSupported site tasks i)
      (fun r t => ∃ a, r = .ok a ∧ OnRecord i e a t) (withAccesses e) s := by
  have rules : StoreRules (fun s e a s' => pastEffect rusAuth i s (.inl e) a s') (fun s => s.1.1)
      Extends (EvidencedIn site) (SupportedIn site (tasks i) i) := evidence_rules (tasks i) i
  cases e with
  | inl call =>
    have method := call_keeps rules (writes_supported justified recorded)
    refine safe_on_left
      (safe_weaken (safe_attempt method fun r t _ => ?_) (fun _ _ post => post) ?_)
    · exact ⟨r, rfl, trivial⟩
    · exact fun s e a s' writes id flow is => writes id flow (Sum.inl.inj is)
  | inr e =>
    intro s₁ later inv a s₂ did
    have kept : Extends s₁ s₂ := extends_logged did
    have same : s₂.1.1 = s₁.1.1 := did.1.2
    have performed : (i, ⟨.inr e, a⟩) ∈ s₂.2 := by rw [did.2]; simp
    exact ⟨all_good_same rules inv kept same, kept, nofun,
      fun s₃ later' _ => ⟨a, rfl, extends_mem later' performed⟩⟩

theorem task_keeps_evidence (i : ι) {s : Past ς ι} (inv : AllEvidenced site s) :
    Safe (pastEffect rusAuth i) (AllEvidenced site) Extends (WritesSupported site tasks i)
      (fun _ _ => True) (((tasks i).program site).interp withAccesses) s :=
  safe_interp (record_grows i)
    (fun e past s _ justified recorded => operation_keeps_evidence i e past s justified recorded)
    inv (task_obeys site (tasks i)) fun _ _ member => absurd member List.not_mem_nil

variable [DecidableEq ι]

theorem evidence_sound {service : ς} {circuits : Circuits} {tr : OuterTrace StoreSig ι}
    {q : FinePool ς ι}
    (run : Exec (fun _ => fineEffect rusAuth) (finePool site tasks (∅, service, circuits)) tr q) :
    Sound (pastEffect rusAuth) (AllEvidenced site) Extends (WritesSupported site tasks)
      (fun _ _ _ => True) (q.withLog tr) := by
  have empty : AllEvidenced site (((∅, service, circuits), []) : Past ς ι) := by
    simp [AllGood, AList.lookup_empty]
  have sound : Sound (pastEffect rusAuth) (AllEvidenced site) Extends (WritesSupported site tasks)
      (fun _ _ _ => True) ((finePool site tasks (∅, service, circuits)).withLog []) :=
    ⟨empty, fun i => task_keeps_evidence i empty⟩
  exact (sound_exec sound (exec_logged run [])).1

/-- In every reachable state, a flow is in status Success only if the filter let
    a callback naming it through or RusAuth answered Success to a check naming
    it, and it records a callback only if the filter let one through. -/
theorem no_confirmation_without_evidence {service : ς} {circuits : Circuits}
    {tr : OuterTrace StoreSig ι} {q : FinePool ς ι}
    (run : Exec (fun _ => fineEffect rusAuth) (finePool site tasks (∅, service, circuits)) tr q)
    {transactionId : Str} {flow : ExampleConfirmationFlow}
    (stored : q.shared.1.lookup transactionId = some flow) :
    (flow.status = .success →
      LetThrough site tr transactionId ∨ CheckedSuccess tr transactionId) ∧
    (flow.callbackReceivedOn ≠ none → LetThrough site tr transactionId) := by
  have evidenced := (evidence_sound run).inv transactionId flow stored
  exact ⟨evidenced.success, evidenced.callback⟩

theorem step_supported {service : ς} {circuits : Circuits} {tr : OuterTrace StoreSig ι}
    {m m' : FinePool ς ι} {l : Label FineSig ι}
    (run : Exec (fun _ => fineEffect rusAuth) (finePool site tasks (∅, service, circuits)) tr m)
    (step : Step (fun _ => fineEffect rusAuth) m l m') {id : Str} {flow : ExampleConfirmationFlow}
    (is : l.2.1 = .inl (.inl (.put id flow))) : Supported site (tasks l.1) l.1 tr id flow := by
  have last := exec_single (exec_logged (.snoc .nil step) tr)
  exact (sound_step (evidence_sound run) last).2.2 id flow is

end Fine

namespace CallbackAfterStart

inductive Party where
  | user
  | webhook
  deriving DecidableEq

def tasks : Party → AppTask
  | .user => .submit Sample.page
  | .webhook => .callback (Sample.callback [55])

def schedule : List Party := List.replicate 13 .user ++ List.replicate 6 .webhook

def after : OuterTrace StoreSig Party × FinePool Unit Party :=
  replay (Sample.answering Sample.confirming) (finePool Sample.site tasks (∅, (), .initial)) schedule

theorem run : Exec (fun _ => fineEffect Sample.anyService)
    (finePool Sample.site tasks (∅, (), .initial)) after.1 after.2 :=
  replay_exec (fun _ => Sample.answering_any _) _ _

def stored : ExampleConfirmationFlow :=
  callbackUpdate (newFlow [116] ⟨some [116], none⟩ ⟨[], 10, [], []⟩ 0) 0 0

end CallbackAfterStart

theorem confirmed_flow_has_evidence :
    LetThrough Sample.site CallbackAfterStart.after.1 [116] :=
  (no_confirmation_without_evidence CallbackAfterStart.run
    (show CallbackAfterStart.after.2.shared.1.lookup [116] = some CallbackAfterStart.stored by
      decide)).2 (by decide)

end RusAuthExample
