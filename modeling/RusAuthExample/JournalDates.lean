import RusAuthExample.StoreInvariants

/-!
The dates of a stored flow under a clock that never goes back. Here a reading of
the clock is a step of its own, so anything may happen between the readings a
call makes and the write that uses them. Bounding every date by the current
clock is what makes the story inductive: a stale copy stays in the past, and
whatever is stamped later is not earlier than it.
-/
namespace RusAuthExample
open Utf16Text OperationPrograms InterleavedRuns RelyGuarantee KeyedMemory

structure Timed where
  journal : Journal
  now : DateTime

/-- A reading returns any date not earlier than the readings before it. -/
def timed : Semantics StoreSig Timed := fun s e =>
  match e with
  | .inl access => fun a s' => effect s.journal access a s'.journal ∧ s'.now = s.now
  | .inr () => fun (reading : DateTime) s' =>
    s.now ≤ reading ∧ s'.now = reading ∧ s'.journal = s.journal

abbrev TimedPool (ι : Type) := Pool StoreSig Exn (Option ExampleConfirmationFlow) Timed ι

def timedPool {ι : Type} (now : DateTime) (calls : ι → StoreCall) : TimedPool ι :=
  ⟨⟨∅, now⟩, fun i => (calls i).body⟩

structure ConsistentDates (flow : ExampleConfirmationFlow) : Prop where
  completed_after : ∀ d ∈ flow.completedOn, flow.createdOn ≤ d
  callback_after : ∀ d ∈ flow.callbackReceivedOn, flow.createdOn ≤ d
  check_after : ∀ d ∈ flow.lastManualCheckOn, flow.createdOn ≤ d
  handled_completed : flow.status ≠ .unhandled → flow.completedOn ≠ none
  callback_completed : flow.callbackReceivedOn ≠ none → flow.completedOn ≠ none
  accounted : ∀ d ∈ flow.completedOn,
    (∃ c ∈ flow.callbackReceivedOn, d ≤ c) ∨ ∃ c ∈ flow.lastManualCheckOn, d ≤ c

/-- The invariant of a copy, stored or in flight: no date lies in the future. -/
structure Dated (now : DateTime) (flow : ExampleConfirmationFlow) : Prop where
  consistent : ConsistentDates flow
  created : flow.createdOn ≤ now
  completed : ∀ d ∈ flow.completedOn, d ≤ now

theorem dated_later {now now' : DateTime} {flow : ExampleConfirmationFlow} (dated : Dated now flow)
    (later : now ≤ now') : Dated now' flow :=
  ⟨dated.consistent, dated.created.trans later, fun d set => (dated.completed d set).trans later⟩

section Writers
variable {now c t : DateTime} {flow : ExampleConfirmationFlow}

theorem dated_new (id : Str) (response : RusAuthCallToConfirmResponse)
    (request : RusAuthCallToConfirmRequest) : Dated now (newFlow id response request now) := by
  refine ⟨⟨?_, ?_, ?_, ?_, ?_, ?_⟩, Nat.le_refl now, ?_⟩ <;> simp [newFlow]

theorem dated_callback (dated : Dated now flow) (first : now ≤ c) (second : c ≤ t) :
    Dated t (callbackUpdate flow c t) := by
  have created : flow.createdOn ≤ c := dated.created.trans first
  have checks := dated.consistent.check_after
  refine ⟨⟨?_, ?_, checks, ?_, ?_, ?_⟩, created.trans second, ?_⟩
  · rintro d ⟨⟩; exact created
  · rintro d ⟨⟩; exact created.trans second
  · simp [callbackUpdate]
  · simp [callbackUpdate]
  · rintro d ⟨⟩; exact Or.inl ⟨t, rfl, second⟩
  · rintro d ⟨⟩; exact second

/-- A waiting status keeps the completion date, which the new check accounts for
    because it is not in the future. -/
theorem dated_waiting (dated : Dated now flow) (later : now ≤ t) :
    Dated t (manualUpdate flow .unhandled flow.completedOn t) := by
  obtain ⟨⟨completedAfter, callbackAfter, _, _, callbackCompleted, _⟩, created, completed⟩ := dated
  refine ⟨⟨completedAfter, callbackAfter, ?_, ?_, callbackCompleted, ?_⟩, created.trans later, ?_⟩
  · rintro d ⟨⟩; exact created.trans later
  · simp [manualUpdate]
  · exact fun d set => Or.inr ⟨t, rfl, (completed d set).trans later⟩
  · exact fun d set => (completed d set).trans later

theorem dated_manual (dated : Dated now flow) (status : CallConfirmationStatus) (first : now ≤ c)
    (second : c ≤ t) : Dated t (manualUpdate flow status (some c) t) := by
  have created : flow.createdOn ≤ c := dated.created.trans first
  have callbacks := dated.consistent.callback_after
  refine ⟨⟨?_, callbacks, ?_, ?_, ?_, ?_⟩, created.trans second, ?_⟩
  · rintro d ⟨⟩; exact created
  · rintro d ⟨⟩; exact created.trans second
  · simp [manualUpdate]
  · simp [manualUpdate]
  · rintro d ⟨⟩; exact Or.inr ⟨t, rfl, second⟩
  · rintro d ⟨⟩; exact second

end Writers

def Onward (s s' : Timed) : Prop := s.now ≤ s'.now

instance : Std.Refl Onward := ⟨fun s => Nat.le_refl s.now⟩

instance : IsTrans Timed Onward := ⟨fun _ _ _ => Nat.le_trans⟩

def DatedAt (s : Timed) (_ : Str) (flow : ExampleConfirmationFlow) : Prop := Dated s.now flow

theorem timed_rules : StoreRules timed Timed.journal Onward DatedAt DatedAt where
  lasting _ _ _ _ later dated := dated_later dated later
  mayLast _ _ _ _ later dated := dated_later dated later
  good _ _ _ dated := dated
  get s id a s' did := by
    obtain ⟨read, now⟩ := did
    obtain ⟨found, same⟩ := effect_get read
    exact ⟨now.ge, same, found⟩
  put s id flow a s' did := ⟨did.2.ge, effect_put did.1⟩
  clock s t s' did := by
    obtain ⟨later, now, same⟩ := did
    exact ⟨by rw [Onward, now]; exact later, same⟩

theorem reads_timed {s s' : Timed} {t : DateTime} (reads : Reads timed Onward s t s') :
    s.now ≤ t ∧ s'.now = t := by
  obtain ⟨m, onward, later, now, _⟩ := reads
  exact ⟨Nat.le_trans onward later, now⟩

theorem writes_dated (call : StoreCall) (s : Timed) :
    WritesAllowed timed Onward DatedAt DatedAt s call := by
  cases call with
  | start response request =>
    intro id created s' _ read
    obtain ⟨_, rfl⟩ := reads_timed read
    exact dated_new id response request
  | get id => trivial
  | markCallbackReceived request =>
    intro id flow c t s₁ s₂ s₃ _ _ dated readC readT
    obtain ⟨first, rfl⟩ := reads_timed readC
    obtain ⟨second, rfl⟩ := reads_timed readT
    exact dated_callback dated first second
  | markManualStatus id status =>
    intro flow s₁ _ dated
    refine ⟨fun waiting t s₂ read => ?_, fun _ c t s₂ s₃ readC readT => ?_⟩
    · obtain ⟨later, rfl⟩ := reads_timed read
      subst waiting
      exact dated_waiting dated later
    · obtain ⟨first, rfl⟩ := reads_timed readC
      obtain ⟨second, rfl⟩ := reads_timed readT
      exact dated_manual dated status first second

variable {ι : Type} [DecidableEq ι]

theorem run_keeps_dates {now : DateTime} {calls : ι → StoreCall}
    {tr : List (Label StoreSig ι)} {q : TimedPool ι}
    (run : Exec (fun _ => timed) (timedPool now calls) tr q) :
    AllGood Timed.journal DatedAt q.shared := by
  have empty : AllGood Timed.journal DatedAt ⟨∅, now⟩ := by simp [AllGood, AList.lookup_empty]
  have sound : Sound (fun _ => timed) (AllGood Timed.journal DatedAt) Onward
      (fun _ s e _ _ => ∀ id flow, e = .inl (.put id flow) → DatedAt s id flow)
      (fun _ _ _ => True) (timedPool now calls) := by
    refine ⟨empty, fun i => ?_⟩
    exact safe_bind empty (call_keeps timed_rules (writes_dated (calls i) _))
      (fun _ _ _ _ _ _ _ _ => trivial) (fun _ _ _ _ _ => trivial)
  exact (sound_exec sound run).1.inv

/-- Every stored flow of every reachable state tells a consistent story, however
    the readings of the clock fall between the reads and writes. -/
theorem dates_consistent {now : DateTime} {calls : ι → StoreCall}
    {tr : List (Label StoreSig ι)} {q : TimedPool ι}
    (run : Exec (fun _ => timed) (timedPool now calls) tr q) {id : Str}
    {flow : ExampleConfirmationFlow} (stored : q.shared.journal.lookup id = some flow) :
    ConsistentDates flow :=
  (run_keeps_dates run id flow stored).consistent

namespace CallbackOverCheck

inductive Party where
  | user
  | check
  | webhook
  deriving DecidableEq

def calls : Party → StoreCall
  | .user => .start ⟨some [116], none⟩ ⟨[55], 10, [], []⟩
  | .check => .markManualStatus [116] .unhandled
  | .webhook => .markCallbackReceived ⟨some [116], [55]⟩

def ticking : (e : StoreSig.Op) → Timed → StoreSig.Answer e × Timed
  | .inl access, s => ((answer access s.journal).1, ⟨(answer access s.journal).2, s.now⟩)
  | .inr (), s => ((s.now + 1 : DateTime), ⟨s.journal, s.now + 1⟩)

/-- The waiting check has read the flow before the callback and writes after it. -/
def after : List (Label StoreSig Party) × TimedPool Party :=
  replay ticking (timedPool 0 calls)
    ([.user, .user, .check] ++ List.replicate 4 .webhook ++ [.check, .check])

theorem run : Exec (fun _ => timed) (timedPool 0 calls) after.1 after.2 := by
  refine replay_exec (fun _ e s => ?_) _ _
  cases e with
  | inl access => exact ⟨rfl, rfl⟩
  | inr u => exact ⟨Nat.le_succ s.now, rfl, rfl⟩

def stored : ExampleConfirmationFlow :=
  manualUpdate (newFlow [116] ⟨some [116], none⟩ ⟨[55], 10, [], []⟩ 1) .unhandled none 4

end CallbackOverCheck

theorem stale_check_keeps_dates : ConsistentDates CallbackOverCheck.stored :=
  dates_consistent CallbackOverCheck.run
    (show CallbackOverCheck.after.2.shared.journal.lookup [116] = some CallbackOverCheck.stored by
      decide)

end RusAuthExample
