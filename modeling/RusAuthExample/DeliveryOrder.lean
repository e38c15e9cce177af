import RusAuthExample.HonestService

/-!
The reply of a start and the callback of its transaction travel on two channels.
The record of the transaction comes into being on the first of them only; a
callback that overtakes the reply finds nothing, is answered with NotFound and
leaves no mark on the record that the reply creates afterwards.
-/
namespace RusAuthExample
open Utf16Text OperationPrograms InterleavedRuns

variable {ς ι : Type}

def Quiet (t : Str) (tr : AppTrace ι) : Prop :=
  ∀ k call outcome, (k, ⟨.inl call, outcome⟩) ∈ tr → call.target ≠ some t

abbrev startStep (i : ι) (response : RusAuthCallToConfirmResponse)
    (request : RusAuthCallToConfirmRequest) (started : callSig.Answer (.start response request)) :
    Label AppSig ι := (i, ⟨.inl (.start response request), started⟩)

abbrev markStep (j : ι) (body : RusAuthConfirmationWebHookRequest)
    (marked : callSig.Answer (.markCallbackReceived body)) : Label AppSig ι :=
  (j, ⟨.inl (.markCallbackReceived body), marked⟩)

/-- The start of `t` and its one callback are both in the trace, and every other
    call that may write is about another transaction. -/
structure Race (tr : AppTrace ι) (i j : ι) (t : Str) (response : RusAuthCallToConfirmResponse)
    (request : RusAuthCallToConfirmRequest) (body : RusAuthConfirmationWebHookRequest)
    (started : callSig.Answer (.start response request))
    (marked : callSig.Answer (.markCallbackReceived body)) : Prop where
  issued : response.transactionId = some t
  names : body.transactionId = some t
  started_in : startStep i response request started ∈ tr
  marked_in : markStep j body marked ∈ tr
  others : ∀ k call outcome, (k, ⟨.inl call, outcome⟩) ∈ tr → k ≠ i → k ≠ j →
    call.target ≠ some t

section Race
variable {t : Str} {response : RusAuthCallToConfirmResponse} {request : RusAuthCallToConfirmRequest}
  {body : RusAuthConfirmationWebHookRequest} {started : callSig.Answer (.start response request)}
  {marked : callSig.Answer (.markCallbackReceived body)} {tr : AppTrace ι} {i j : ι}

theorem start_writes (race : Race tr i j t response request body started marked) :
    (StoreCall.start response request).target ≠ none := by
  rw [show (StoreCall.start response request).target = some t from race.issued]
  nofun

theorem mark_writes (race : Race tr i j t response request body started marked) :
    (StoreCall.markCallbackReceived body).target ≠ none := by
  rw [show (StoreCall.markCallbackReceived body).target = some t from race.names]
  nofun

end Race

section Runs
variable [DecidableEq ι] {rusAuth : Semantics rusAuthSig ς} {site : Site} {tasks : ι → AppTask}
  {t : Str}

theorem record_stays {tr : AppTrace ι} {p q : AppPool ς ι}
    (run : Exec (fun _ => appEffect rusAuth) p tr q) (quiet : Quiet t tr) :
    q.shared.1.lookup t = p.shared.1.lookup t := by
  induction run with
  | nil => rfl
  | @snoc m r tr l before last ih =>
    rw [← ih fun k call outcome member => quiet k call outcome (List.mem_append_left _ member)]
    cases last with
    | @act i e next a s' ready did =>
      cases e with
      | inr e => exact congrArg (AList.lookup t) did.2
      | inl call =>
        rcases call_cases did.1 with same | ⟨id, flow, result, writes, wrote, _⟩
        · exact congrArg (AList.lookup t) same
        · have other : t ≠ id := by
            rintro rfl
            exact quiet i call a (by simp) (writes_target writes)
          show s'.1.lookup t = _
          rw [wrote, AList.lookup_insert_ne other]

section SingleWriter
variable {service : ς} {circuits : Circuits} {journal : Journal} {q : AppPool ς ι}

theorem justified_no_call {task : AppTask} {past : List (Performed AppSig)} {call : StoreCall}
    (justified : Justified site task past (.inl call)) (changes : call.target ≠ none) :
    NoCall past := by
  cases call with
  | start response request => exact justified.1
  | get id => exact absurd rfl changes
  | markCallbackReceived request => exact justified.1
  | markManualStatus id status => exact justified.1

/-- A task that writes has made no call before, and makes none that writes after. -/
theorem single_writer {xs ys : AppTrace ι} {k : ι} {call : StoreCall}
    {outcome : callSig.Answer call}
    (run : Exec (fun _ => appEffect rusAuth) (appPool site tasks (journal, service, circuits))
      (xs ++ (k, ⟨.inl call, outcome⟩) :: ys) q) (changes : call.target ≠ none) :
    (∀ call' outcome', (k, ⟨.inl call', outcome'⟩) ∉ xs) ∧
      ∀ call' outcome', (k, ⟨.inl call', outcome'⟩) ∈ ys → call'.target = none := by
  constructor
  · intro call' outcome' member
    have justified := exec_obeys_at run (task_obeys site (tasks k))
    exact justified_no_call justified changes call' outcome' (mem_own.mpr member)
  · intro call' outcome' member
    by_contra changes'
    obtain ⟨us, vs, rfl⟩ := List.append_of_mem member
    have shift : xs ++ (k, ⟨.inl call, outcome⟩) :: (us ++ (k, ⟨.inl call', outcome'⟩) :: vs) =
        (xs ++ (k, ⟨.inl call, outcome⟩) :: us) ++ (k, ⟨.inl call', outcome'⟩) :: vs := by simp
    rw [shift] at run
    have justified := exec_obeys_at run (task_obeys site (tasks k))
    exact justified_no_call justified changes' call outcome (mem_own.mpr (by simp))

/-- With one writer each for two calls and nobody else about, the record is quiet
    before, between and after them. -/
theorem quiet_around {xs ys zs : AppTrace ι} {i j : ι} {first second : StoreCall}
    {a : callSig.Answer first} {b : callSig.Answer second}
    (run : Exec (fun _ => appEffect rusAuth) (appPool site tasks (journal, service, circuits))
      (xs ++ (i, ⟨.inl first, a⟩) :: ys ++ (j, ⟨.inl second, b⟩) :: zs) q)
    (one : first.target ≠ none) (two : second.target ≠ none)
    (others : ∀ k call outcome,
      (k, ⟨.inl call, outcome⟩) ∈ xs ++ (i, ⟨.inl first, a⟩) :: ys ++ (j, ⟨.inl second, b⟩) :: zs →
      k ≠ i → k ≠ j → call.target ≠ some t) :
    Quiet t xs ∧ Quiet t ys ∧ Quiet t zs := by
  have right := single_writer run two
  have left : (∀ call outcome, (i, ⟨.inl call, outcome⟩) ∉ xs) ∧ ∀ call outcome,
      (i, ⟨.inl call, outcome⟩) ∈ ys ++ (j, ⟨.inl second, b⟩) :: zs → call.target = none := by
    rw [List.append_assoc] at run
    exact single_writer run one
  have silent : ∀ {call : StoreCall}, call.target = none → call.target ≠ some t :=
    fun none => none ▸ nofun
  refine ⟨fun k call outcome member => ?_, fun k call outcome member => ?_,
    fun k call outcome member => ?_⟩
  · by_cases isI : k = i
    · subst isI; exact absurd member (left.1 call outcome)
    · by_cases isJ : k = j
      · subst isJ; exact absurd (by simp [member]) (right.1 call outcome)
      · exact others k call outcome (by simp [member]) isI isJ
  · by_cases isI : k = i
    · subst isI; exact silent (left.2 call outcome (by simp [member]))
    · by_cases isJ : k = j
      · subst isJ; exact absurd (by simp [member]) (right.1 call outcome)
      · exact others k call outcome (by simp [member]) isI isJ
  · by_cases isI : k = i
    · subst isI; exact silent (left.2 call outcome (by simp [member]))
    · by_cases isJ : k = j
      · subst isJ; exact silent (right.2 call outcome member)
      · exact others k call outcome (by simp [member]) isI isJ

section Deliveries
variable {s s' : App ς} {response : RusAuthCallToConfirmResponse}
  {request : RusAuthCallToConfirmRequest} {body : RusAuthConfirmationWebHookRequest}

theorem start_delivered {started : callSig.Answer (.start response request)}
    (did : appEffect rusAuth s (.inl (.start response request)) started s')
    (issued : response.transactionId = some t) :
    ∃ created, s'.1.lookup t = some (newFlow t response request created) := by
  obtain ⟨⟨clock, effect⟩, _⟩ := did
  rw [on_journal_start clock s.1 issued] at effect
  have wrote := (Prod.mk.inj effect).2
  exact ⟨clock 0, by rw [← wrote]; exact AList.lookup_insert _⟩

theorem callback_delivered {marked : callSig.Answer (.markCallbackReceived body)}
    {flow : ExampleConfirmationFlow}
    (did : appEffect rusAuth s (.inl (.markCallbackReceived body)) marked s')
    (names : body.transactionId = some t) (known : s.1.lookup t = some flow) :
    ∃ completed received, s'.1.lookup t = some (callbackUpdate flow completed received) := by
  obtain ⟨⟨clock, effect⟩, _⟩ := did
  rw [on_journal_callback clock s.1 names, known] at effect
  have wrote := (Prod.mk.inj effect).2
  exact ⟨clock 0, clock 1, by rw [← wrote]; exact AList.lookup_insert _⟩

theorem callback_missed {marked : callSig.Answer (.markCallbackReceived body)}
    (did : appEffect rusAuth s (.inl (.markCallbackReceived body)) marked s')
    (names : body.transactionId = some t) (unknown : s.1.lookup t = none) : marked = .ok none := by
  obtain ⟨⟨clock, effect⟩, _⟩ := did
  rw [on_journal_callback clock s.1 names, unknown] at effect
  exact (Prod.mk.inj effect).1.symm

theorem missed_untouched
    (did : appEffect rusAuth s (.inl (.markCallbackReceived body)) (.ok none) s') :
    s'.1 = s.1 := by
  rcases call_cases did.1 with same | ⟨id, flow, result, _, _, answer, returned⟩
  · exact same
  · cases answer
    cases returned

end Deliveries

theorem callback_not_found {http : CallbackRequest} {body : RusAuthConfirmationWebHookRequest}
    {ops : List (Performed AppSig)} {p : AppM (Option ActionResult)}
    (path : Prog.Path ((AppTask.callback http).program site) ops p)
    (missed : (⟨.inl (.markCallbackReceived body), Except.ok none⟩ : Performed AppSig) ∈ ops) :
    p = .ret (some .notFound) := by
  obtain ⟨_, _, path, missed⟩ := Prog.path_skip path missed nofun
  obtain ⟨_, _, path, missed⟩ := Prog.path_skip path missed nofun
  replace path : Prog.Path ((callbackEndpoint site http).bind fun result =>
    .ret (some result)) _ p := path
  rw [callbackEndpoint] at path
  split at path
  · obtain ⟨rfl, _⟩ := Prog.path_ret path
    exact absurd missed List.not_mem_nil
  · obtain ⟨rfl, _⟩ := Prog.path_ret path
    exact absurd missed List.not_mem_nil
  · cases path with
    | nil => exact absurd missed List.not_mem_nil
    | @cons _ _ outcome _ _ path =>
      rcases List.mem_cons.mp missed with now | later
      · cases now
        exact (Prog.path_ret path).2
      · -- what follows the mark touches no record
        rcases (outcome : Except Exn (Option ExampleConfirmationFlow)) with x | _ | flow
        · obtain ⟨rfl, _⟩ := Prog.path_raise path
          exact absurd later List.not_mem_nil
        · obtain ⟨rfl, _⟩ := Prog.path_ret path
          exact absurd later List.not_mem_nil
        · replace path : Prog.Path ((Prog.interp withPages
            ((publishAsync (updateOf flow) .none).onRight.bind fun _ => .ret .ok)).bind
              fun result => .ret (some result)) _ p := path
          rw [Prog.interp_bind] at path
          have free : Local (.inl (.markCallbackReceived body)) :=
            Prog.path_uses (Prog.uses_bind (Prog.uses_bind (publish_local _ _)
              fun _ => by exact trivial) fun _ => by exact trivial) path _ later
          exact absurd free id

variable {i j : ι} {response : RusAuthCallToConfirmResponse} {request : RusAuthCallToConfirmRequest}
  {body : RusAuthConfirmationWebHookRequest} {started : callSig.Answer (.start response request)}
  {marked : callSig.Answer (.markCallbackReceived body)}

theorem callback_after_start {xs ys zs : AppTrace ι}
    (run : Exec (fun _ => appEffect rusAuth) (appPool site tasks (journal, service, circuits))
      (xs ++ startStep i response request started :: ys ++ markStep j body marked :: zs) q)
    (race : Race (xs ++ startStep i response request started :: ys ++ markStep j body marked :: zs)
      i j t response request body started marked) :
    ∃ created completed received, q.shared.1.lookup t =
      some (callbackUpdate (newFlow t response request created) completed received) := by
  obtain ⟨_, between, rest⟩ := quiet_around run (start_writes race) (mark_writes race) race.others
  obtain ⟨m₂, m₃, before, mark, after⟩ := exec_at run
  obtain ⟨m₀, m₁, _, start, mid⟩ := exec_at before
  cases start with
  | act _ did =>
    obtain ⟨created, stored⟩ := start_delivered did race.issued
    cases mark with
    | act _ did' =>
      have known := (record_stays mid between).trans stored
      obtain ⟨completed, received, stored'⟩ := callback_delivered did' race.names known
      exact ⟨created, completed, received, (record_stays after rest).trans stored'⟩

/-- The callback first: it finds nothing, writes nothing and ends with NotFound,
    and the reply creates a record that knows nothing of it. -/
theorem callback_before_start {xs ys zs : AppTrace ι}
    (run : Exec (fun _ => appEffect rusAuth) (appPool site tasks (journal, service, circuits))
      (xs ++ markStep j body marked :: ys ++ startStep i response request started :: zs) q)
    (fresh : journal.lookup t = none)
    (race : Race (xs ++ markStep j body marked :: ys ++ startStep i response request started :: zs)
      i j t response request body started marked) :
    marked = .ok none ∧ q.task j = .ret (some .notFound) ∧
      ∃ created, q.shared.1.lookup t = some (newFlow t response request created) := by
  obtain ⟨early, _, rest⟩ := quiet_around run (mark_writes race) (start_writes race)
    fun k call outcome member isJ isI => race.others k call outcome member isI isJ
  obtain ⟨m₂, m₃, before, start, after⟩ := exec_at run
  obtain ⟨_, http, isCallback, _⟩ := exec_obeys_at before (task_obeys site (tasks j))
  obtain ⟨m₀, m₁, nothing, mark, _⟩ := exec_at before
  obtain rfl : marked = .ok none := by
    cases mark with
    | act _ did => exact callback_missed did race.names ((record_stays nothing early).trans fresh)
  refine ⟨rfl, ?_, ?_⟩
  · have walked := exec_path run j
    rw [show (appPool site tasks (journal, service, circuits)).task j =
      (AppTask.callback http).program site by rw [← isCallback]; rfl] at walked
    exact callback_not_found walked (mem_own.mpr race.marked_in)
  · cases start with
    | act _ did =>
      obtain ⟨created, stored⟩ := start_delivered did race.issued
      exact ⟨created, (record_stays after rest).trans stored⟩

/-- The order of the two deliveries, and nothing else, decides the record: the
    reply first, and the callback confirms it; the callback first, and it is
    answered with NotFound, writes nothing, and the record is that of the start
    alone. -/
theorem delivery_order_decides {tr : AppTrace ι}
    (run : Exec (fun _ => appEffect rusAuth) (appPool site tasks (journal, service, circuits)) tr q)
    (fresh : journal.lookup t = none) (race : Race tr i j t response request body started marked) :
    (Before tr (startStep i response request started) (markStep j body marked) ∧
      ∃ created completed received, q.shared.1.lookup t =
        some (callbackUpdate (newFlow t response request created) completed received)) ∨
    (Before tr (markStep j body marked) (startStep i response request started) ∧
      q.task j = .ret (some .notFound) ∧
      (∀ m m', Performs (fun _ => appEffect rusAuth)
        (appPool site tasks (journal, service, circuits)) tr q m (markStep j body marked) m' →
        m'.shared.1 = m.shared.1) ∧
      ∃ created, q.shared.1.lookup t = some (newFlow t response request created)) := by
  have different : startStep i response request started ≠ markStep j body marked := by
    intro same
    cases same
  rcases before_or_after race.started_in race.marked_in different with first | first
  · refine Or.inl ⟨first, ?_⟩
    obtain ⟨xs, ys, zs, rfl⟩ := first
    exact callback_after_start run race
  · refine Or.inr ⟨first, ?_⟩
    obtain ⟨xs, ys, zs, rfl⟩ := first
    obtain ⟨rfl, answer, record⟩ := callback_before_start run fresh race
    refine ⟨answer, ?_, record⟩
    rintro m m' ⟨_, _, _, _, step, _⟩
    cases step with
    | act _ did => exact missed_untouched did

end SingleWriter
end Runs

def CallbackRecorded (journal : Journal) (t : Str) : Prop :=
  ∃ flow, journal.lookup t = some flow ∧ flow.status = .success ∧ flow.callbackReceivedOn ≠ none

namespace TwoChannels

inductive Party where
  | user
  | webhook
  | verdict
  deriving DecidableEq

def tasks : Party → AppTask
  | .user => .submit Sample.page
  | .webhook => .callback (Sample.callback [55])
  | .verdict => .decide [116] .success

/-- The reply of the start is in flight when the callback comes. -/
def callbackFirst : List Party :=
  List.replicate 6 .user ++ [.verdict, .webhook, .webhook, .webhook] ++ [.user, .user]

def startFirst : List Party :=
  List.replicate 8 .user ++ [.verdict, .webhook, .webhook, .webhook]

def after (schedule : List Party) : AppTrace Party × AppPool Verdicts Party :=
  replay Sample.answers (honestPool Sample.site tasks .initial) schedule

theorem callback_first_run : HonestExec Sample.site (honestPool Sample.site tasks .initial)
    (after callbackFirst).1 (after callbackFirst).2 :=
  replay_exec_of_possible (fun _ => Sample.honest_answers) _ callbackFirst (by decide)

theorem start_first_run : HonestExec Sample.site (honestPool Sample.site tasks .initial)
    (after startFirst).1 (after startFirst).2 :=
  replay_exec_of_possible (fun _ => Sample.honest_answers) _ startFirst (by decide)

def response : RusAuthCallToConfirmResponse := ⟨some [116], none⟩

def request : RusAuthCallToConfirmRequest := ⟨[], 10, [], lit "secret"⟩

def body : RusAuthConfirmationWebHookRequest := ⟨some [116], [55]⟩

def flow : ExampleConfirmationFlow := newFlow [116] response request 0

theorem others_silent {schedule : List Party}
    (decides : own .verdict (after schedule).1 = [⟨.inr (.inl (.decide [116] .success)), ()⟩])
    (k : Party) (call : StoreCall) (outcome : callSig.Answer call)
    (member : (k, ⟨.inl call, outcome⟩) ∈ (after schedule).1) (notStart : k ≠ .user)
    (notCallback : k ≠ .webhook) : call.target ≠ some [116] := by
  cases k with
  | user => exact absurd rfl notStart
  | webhook => exact absurd rfl notCallback
  | verdict =>
    have mine := mem_own.mpr member
    rw [decides, List.mem_singleton] at mine
    cases mine

theorem callback_first_race : Race (after callbackFirst).1 .user .webhook [116] response request
    body (.ok flow) (.ok none) :=
  ⟨rfl, rfl, List.mem_of_getElem? (i := 11) rfl, List.mem_of_getElem? (i := 9) rfl,
    others_silent rfl⟩

theorem start_first_race : Race (after startFirst).1 .user .webhook [116] response request body
    (.ok flow) (.ok (some (callbackUpdate flow 0 0))) :=
  ⟨rfl, rfl, List.mem_of_getElem? (i := 7) rfl, List.mem_of_getElem? (i := 11) rfl,
    others_silent rfl⟩

end TwoChannels

theorem start_first_confirms :
    CallbackRecorded (TwoChannels.after TwoChannels.startFirst).2.shared.1 [116] := by
  rcases delivery_order_decides TwoChannels.start_first_run (AList.lookup_empty _)
    TwoChannels.start_first_race with
    ⟨_, created, completed, received, stored⟩ | ⟨_, _, _, created, stored⟩
  · exact ⟨_, stored, rfl, nofun⟩
  · have recorded : (TwoChannels.after TwoChannels.startFirst).2.shared.1.lookup [116] =
        some (callbackUpdate TwoChannels.flow 0 0) := by decide
    rw [recorded] at stored
    cases stored

/-- An honest run in which the callback of a confirmed transaction overtakes the
    reply, and both are processed without a trace of the confirmation. -/
theorem overtaking_callback_lost :
    HonestExec Sample.site (honestPool Sample.site TwoChannels.tasks .initial)
      (TwoChannels.after TwoChannels.callbackFirst).1
      (TwoChannels.after TwoChannels.callbackFirst).2 ∧
    Race (TwoChannels.after TwoChannels.callbackFirst).1 .user .webhook [116] TwoChannels.response
      TwoChannels.request TwoChannels.body (.ok TwoChannels.flow) (.ok none) ∧
    ¬ CallbackRecorded (TwoChannels.after TwoChannels.callbackFirst).2.shared.1 [116] := by
  refine ⟨TwoChannels.callback_first_run, TwoChannels.callback_first_race, ?_⟩
  rintro ⟨flow, stored, success, _⟩
  have waiting : (TwoChannels.after TwoChannels.callbackFirst).2.shared.1.lookup [116] =
      some TwoChannels.flow := by decide
  rw [waiting] at stored
  cases stored
  cases success

end RusAuthExample
