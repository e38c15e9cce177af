import RusAuthExample.StoreSerialization

/-!
What the journal holds, whatever races on it: one record for every transaction
whose start has written, under that transaction's id and with the data of that
start. Updates write back whole copies under the id of their request, so the
invariant covers the copies in flight as well, and it does so through the trace:
a copy once read belongs to a start of the past, and the past stays.
-/
namespace RusAuthExample
open Utf16Text OperationPrograms InterleavedRuns RelyGuarantee KeyedMemory

variable {ι : Type}

def IsStart (c : ClockedCall) (id : Str) (flow : ExampleConfirmationFlow) : Prop :=
  ∃ response request, c.call = .start response request ∧ response.transactionId = some id ∧
    flow = newFlow id response request (c.clock 0)

def Started (calls : ι → ClockedCall) (tr : StoreTrace ι) (i : ι) (id : Str)
    (flow : ExampleConfirmationFlow) : Prop :=
  IsStart (calls i) id flow ∧ (i, ⟨.put id flow, ()⟩) ∈ tr

/-- RusAuth never returns the same transaction id twice. -/
def FreshIds (calls : ι → ClockedCall) : Prop :=
  ∀ i j id f g, IsStart (calls i) id f → IsStart (calls j) id g → i = j

/-- The fields no update touches. -/
structure SameOrigin (flow origin : ExampleConfirmationFlow) : Prop where
  transactionId : flow.transactionId = origin.transactionId
  clientPhoneNumber : flow.clientPhoneNumber = origin.clientPhoneNumber
  confirmationPhoneNumber : flow.confirmationPhoneNumber = origin.confirmationPhoneNumber
  webHook : flow.webHook = origin.webHook
  createdOn : flow.createdOn = origin.createdOn

theorem same_origin_refl (flow : ExampleConfirmationFlow) : SameOrigin flow flow :=
  ⟨rfl, rfl, rfl, rfl, rfl⟩

theorem same_origin_callback {flow origin : ExampleConfirmationFlow} (same : SameOrigin flow origin)
    (clock : Nat → DateTime) : SameOrigin (callbackWith clock flow) origin := by
  obtain ⟨t, c, n, w, d⟩ := same
  exact ⟨t, c, n, w, d⟩

theorem same_origin_manual {flow origin : ExampleConfirmationFlow} (same : SameOrigin flow origin)
    (status : CallConfirmationStatus) (clock : Nat → DateTime) :
    SameOrigin (manualWith status clock flow) origin := by
  obtain ⟨t, c, n, w, d⟩ := same
  simp only [manualWith]
  split
  · exact ⟨t, c, n, w, d⟩
  · exact ⟨t, c, n, w, d⟩

theorem is_start_same_key {c : ClockedCall} {id : Str} {flow : ExampleConfirmationFlow}
    (starts : IsStart c id flow) : flow.transactionId = id := by
  obtain ⟨response, request, _, _, rfl⟩ := starts
  rfl

def UpdateOf (call : StoreCall) (id : Str) : Prop :=
  (∃ request, call = .markCallbackReceived request ∧ request.transactionId = some id) ∨
    ∃ status, call = .markManualStatus id status

theorem update_of_access {c : ClockedCall} {id : Str} (updates : UpdateOf c.call id) :
    ∃ f, c.access = .update id f := by
  rcases updates with ⟨request, is, names⟩ | ⟨status, is⟩
  · exact ⟨callbackWith c.clock, by rw [ClockedCall.access, is, StoreCall.access, names]⟩
  · exact ⟨manualWith status c.clock, by rw [ClockedCall.access, is]; rfl⟩

theorem update_keeps_origin {c : ClockedCall} {id : Str}
    {f : ExampleConfirmationFlow → ExampleConfirmationFlow} (shape : c.access = .update id f)
    {flow origin : ExampleConfirmationFlow} (same : SameOrigin flow origin) :
    SameOrigin (f flow) origin := by
  obtain ⟨call, clock⟩ := c
  cases call with
  | start response request => rcases response with ⟨_ | _, _⟩ <;> cases shape
  | get t => cases shape
  | markCallbackReceived request =>
    rcases request with ⟨_ | _, _⟩
    · cases shape
    · cases shape; exact same_origin_callback same clock
  | markManualStatus t status => cases shape; exact same_origin_manual same status clock

theorem write_is_start {c : ClockedCall} {id : Str} {flow : ExampleConfirmationFlow}
    (shape : c.access = .write id flow) : IsStart c id flow := by
  obtain ⟨call, clock⟩ := c
  cases call with
  | start response request =>
    rcases response with ⟨_ | t, atc⟩
    · cases shape
    · cases shape; exact ⟨_, _, rfl, rfl, rfl⟩
  | get t => cases shape
  | markCallbackReceived request => rcases request with ⟨_ | _, _⟩ <;> cases shape
  | markManualStatus t status => cases shape

/-- Every stored record comes from a start that has written it, and no start
    that has written is forgotten. -/
structure Recorded (calls : ι → ClockedCall) (s : Journal × StoreTrace ι) : Prop where
  origin : ∀ id flow, s.1.lookup id = some flow →
    ∃ i f, Started calls s.2 i id f ∧ SameOrigin flow f
  present : ∀ i id f, Started calls s.2 i id f → s.1.lookup id ≠ none

theorem started_later {calls : ι → ClockedCall} {s s' : Journal × StoreTrace ι}
    (later : Extends s s') {i : ι} {id : Str} {f : ExampleConfirmationFlow}
    (started : Started calls s.2 i id f) : Started calls s'.2 i id f :=
  ⟨started.1, extends_mem later started.2⟩

section Steps
variable {calls : ι → ClockedCall} {s s' : Journal × StoreTrace ι} {i : ι}

theorem recorded_get (sofar : Recorded calls s) {id : Str} {a : Option ExampleConfirmationFlow}
    (did : logged (fun _ => effect) i s (.get id) a s') :
    Recorded calls s' ∧ a = s.1.lookup id := by
  have later := extends_logged did
  obtain ⟨read, log⟩ := did
  obtain ⟨found, same⟩ := effect_get read
  refine ⟨⟨fun id flow stored => ?_, fun j id f started => ?_⟩, found⟩
  · rw [same] at stored
    obtain ⟨j, f, started, origin⟩ := sofar.origin id flow stored
    exact ⟨j, f, started_later later started, origin⟩
  · rw [same]
    have before : (j, ⟨.put id f, ()⟩) ∈ s.2 := by simpa [log] using started.2
    exact sofar.present j id f ⟨started.1, before⟩

theorem recorded_put (sofar : Recorded calls s) {id : Str} {flow : ExampleConfirmationFlow}
    (did : logged (fun _ => effect) i s (.put id flow) () s')
    (origin : ∃ j f, Started calls s'.2 j id f ∧ SameOrigin flow f) : Recorded calls s' := by
  have later := extends_logged did
  obtain ⟨wrote, log⟩ := did
  have same := effect_put wrote
  refine ⟨fun id' flow' stored => ?_, fun j id' f started => ?_⟩
  · rw [same] at stored
    rcases lookup_insert_cases stored with ⟨rfl, rfl⟩ | ⟨_, before⟩
    · exact origin
    · obtain ⟨j, f, started, from'⟩ := sofar.origin id' flow' before
      exact ⟨j, f, started_later later started, from'⟩
  · rw [same]
    by_cases here : id' = id
    · subst here
      simp [AList.lookup_insert]
    · have before : (j, ⟨.put id' f, ()⟩) ∈ s.2 := by
        have := started.2
        rw [log, List.mem_append, List.mem_singleton] at this
        rcases this with old | new
        · exact old
        · simp only [Prod.mk.injEq, put_performed_inj] at new
          exact absurd new.2.1 here
      rw [AList.lookup_insert_ne here]
      exact sofar.present j id' f ⟨started.1, before⟩

end Steps

theorem call_keeps_records (calls : ι → ClockedCall) (i : ι) (s : Journal × StoreTrace ι) :
    Safe (logged (fun _ => effect) i) (Recorded calls) Extends (fun _ _ _ _ => True)
      (fun _ _ => True) (calls i).access.prog s := by
  cases shape : (calls i).access with
  | refuse x => exact fun _ _ _ => trivial
  | fetch k =>
    intro s₁ _ sofar a s₂ did
    exact ⟨(recorded_get sofar did).1, extends_logged did, trivial, fun _ _ _ => trivial⟩
  | write k v =>
    intro s₁ _ sofar a s₂ did
    have wrote : (i, ⟨.put k v, a⟩) ∈ s₂.2 := by rw [did.2]; simp
    have origin := recorded_put sofar did ⟨i, v, ⟨write_is_start shape, wrote⟩, same_origin_refl v⟩
    exact ⟨origin, extends_logged did, trivial, fun _ _ _ => trivial⟩
  | update k f =>
    intro s₁ _ sofar a s₂ did
    obtain ⟨sofar₂, found⟩ := recorded_get sofar did
    refine ⟨sofar₂, extends_logged did, trivial, ?_⟩
    cases a with
    | none => exact fun _ _ _ => trivial
    | some v =>
      -- the copy stays accounted for until it is written back, however late
      obtain ⟨j, g, started, same⟩ := sofar.origin k v found.symm
      intro s₃ later sofar₃ b s₄ did'
      have origin := started_later (extends_logged did')
        (started_later later (started_later (extends_logged did) started))
      have put := recorded_put sofar₃ did' ⟨j, g, origin, update_keeps_origin shape same⟩
      exact ⟨put, extends_logged did', trivial, fun _ _ _ => trivial⟩

theorem record_has_key {calls : ι → ClockedCall} {s : Journal × StoreTrace ι}
    (sofar : Recorded calls s) {id : Str} {flow : ExampleConfirmationFlow}
    (stored : s.1.lookup id = some flow) : flow.transactionId = id := by
  obtain ⟨i, f, started, same⟩ := sofar.origin id flow stored
  rw [same.transactionId, is_start_same_key started.1]

variable [DecidableEq ι]

theorem run_records {calls : ι → ClockedCall} {tr : StoreTrace ι} {q : StorePool ι}
    (run : StoreRun ∅ calls tr q) : Recorded calls (q.shared, tr) := by
  rw [StoreRun, store_pool_eq] at run
  have empty : Recorded calls (∅, ([] : StoreTrace ι)) :=
    ⟨by simp [AList.lookup_empty], by rintro i id f ⟨_, member⟩; simp at member⟩
  have sound : Sound (logged fun _ => effect) (Recorded calls) Extends (fun _ _ _ _ _ => True)
      (fun _ _ _ => True)
      ((KeyedMemory.start (fun i => (calls i).access) (∅ : Journal)).withLog []) :=
    ⟨empty, fun i => call_keeps_records calls i _⟩
  exact (sound_exec sound (exec_logged run [])).1.inv

theorem key_iff_started {calls : ι → ClockedCall} {tr : StoreTrace ι} {q : StorePool ι}
    (run : StoreRun ∅ calls tr q) (id : Str) :
    id ∈ q.shared ↔ ∃ i f, Started calls tr i id f := by
  have sofar := run_records run
  rw [← AList.lookup_isSome, Option.isSome_iff_exists]
  constructor
  · rintro ⟨flow, stored⟩
    obtain ⟨i, f, started, _⟩ := sofar.origin id flow stored
    exact ⟨i, f, started⟩
  · rintro ⟨i, f, started⟩
    exact Option.ne_none_iff_exists'.mp (sofar.present i id f started)

section Listing
variable {journal : Journal} {values : List ExampleConfirmationFlow}

theorem mem_get_all (taken : Snapshot journal values) (flow : ExampleConfirmationFlow) :
    flow ∈ getAll values ↔ ∃ id, journal.lookup id = some flow := by
  rw [getAll, List.mem_mergeSort, taken.mem_iff, List.mem_map]
  constructor
  · rintro ⟨⟨id, f⟩, member, rfl⟩
    exact ⟨id, AList.mem_lookup_iff.mpr member⟩
  · rintro ⟨id, found⟩
    exact ⟨⟨id, flow⟩, AList.mem_lookup_iff.mp found, rfl⟩

theorem get_all_sorted (values : List ExampleConfirmationFlow) :
    (getAll values).Pairwise fun x y => y.createdOn ≤ x.createdOn := by
  refine (List.pairwise_mergeSort (fun x y z xy yz => ?_) (fun x y => ?_) values).imp fun le => ?_
  · simp only [decide_eq_true_eq] at xy yz ⊢
    exact Nat.le_trans yz xy
  · simp only [Bool.or_eq_true, decide_eq_true_eq]
    exact Nat.le_total _ _
  · simpa using le

theorem get_all_nodup (taken : Snapshot journal values)
    (keyed' : ∀ id flow, journal.lookup id = some flow → flow.transactionId = id) :
    (getAll values).Nodup := by
  have keys : (journal.entries.map Sigma.snd).map (·.transactionId) = journal.keys := by
    rw [List.map_map, AList.keys, List.keys]
    exact List.map_congr_left fun entry member =>
      keyed' entry.1 entry.2 (AList.mem_lookup_iff.mpr member)
  have distinct : (journal.entries.map Sigma.snd).Nodup :=
    List.Nodup.of_map (·.transactionId) (keys ▸ journal.keys_nodup)
  exact ((List.mergeSort_perm _ _).trans taken).nodup_iff.mpr distinct

theorem count_get_all (taken : Snapshot journal values)
    (keyed' : ∀ id flow, journal.lookup id = some flow → flow.transactionId = id)
    {id : Str} {flow : ExampleConfirmationFlow} (stored : journal.lookup id = some flow) :
    (getAll values).count flow = 1 :=
  List.count_eq_one_of_mem (get_all_nodup taken keyed') ((mem_get_all taken flow).mpr ⟨id, stored⟩)

end Listing

/-- An update that begins while its id is unknown can step, returns null with
    that one step, and changes nothing. -/
def UnknownIgnored (calls : ι → ClockedCall) (q : StorePool ι) : Prop :=
  ∀ i id, UpdateOf (calls i).call id → id ∉ q.shared → q.task i = (calls i).body →
    (∃ o q', Step (fun _ => effect) q (i, o) q') ∧
    ∀ o q', Step (fun _ => effect) q (i, o) q' → q'.shared = q.shared ∧ q'.task i = .ret none

theorem unknown_ignored (calls : ι → ClockedCall) (q : StorePool ι) : UnknownIgnored calls q := by
  intro i id updates unknown idle
  obtain ⟨f, shape⟩ := update_of_access updates
  have missing : q.shared.lookup id = none := AList.lookup_eq_none.mpr unknown
  have begins : q.task i = (Access.update id f).prog := by
    rw [idle, ← shape]
    exact (calls i).call.feed_body (calls i).clock
  have reads : effect q.shared (.get id) (none : Option ExampleConfirmationFlow) q.shared :=
    congrArg (·, q.shared) missing
  refine ⟨⟨⟨.get id, none⟩, _, .act begins reads⟩, ?_⟩
  intro o q' step
  cases step with
  | act ready did =>
    rw [begins] at ready
    cases ready
    obtain ⟨rfl, rfl⟩ := effect_get did
    exact ⟨rfl, by simp [missing]⟩

/-- In every reachable state the journal holds exactly the started transactions,
    each under its own id and with the data of its own start; the listing shows
    each of them once, latest first; updates of unknown ids do nothing. -/
theorem journal_faithful {calls : ι → ClockedCall} {tr : StoreTrace ι} {q : StorePool ι}
    (run : StoreRun ∅ calls tr q) (fresh : FreshIds calls) :
    (∀ id, id ∈ q.shared ↔ ∃ i f, Started calls tr i id f) ∧
    (∀ id flow, q.shared.lookup id = some flow →
      flow.transactionId = id ∧ ∀ i f, Started calls tr i id f → SameOrigin flow f) ∧
    (∀ values, Snapshot q.shared values →
      (∀ id flow, q.shared.lookup id = some flow → (getAll values).count flow = 1) ∧
      (∀ flow ∈ getAll values, q.shared.lookup flow.transactionId = some flow) ∧
      (getAll values).Pairwise fun x y => y.createdOn ≤ x.createdOn) ∧
    UnknownIgnored calls q := by
  have sofar := run_records run
  have own_key : ∀ id flow, q.shared.lookup id = some flow → flow.transactionId = id :=
    fun id flow stored => record_has_key sofar stored
  refine ⟨key_iff_started run, fun id flow stored => ⟨own_key id flow stored, ?_⟩, ?_,
    unknown_ignored calls q⟩
  · intro i f started
    obtain ⟨j, g, from', same⟩ := sofar.origin id flow stored
    obtain rfl := fresh i j id f g started.1 from'.1
    obtain ⟨response, request, is, _, rfl⟩ := started.1
    obtain ⟨response', request', is', _, rfl⟩ := from'.1
    rw [is] at is'
    cases is'
    exact same
  · intro values taken
    refine ⟨fun id flow stored => count_get_all taken own_key stored, ?_, get_all_sorted values⟩
    intro flow member
    obtain ⟨id, stored⟩ := (mem_get_all taken flow).mp member
    rwa [own_key id flow stored]

namespace StartThenCallback

inductive Party where
  | user
  | webhook
  deriving DecidableEq

def calls : Party → ClockedCall
  | .user => ⟨.start ⟨some [116], none⟩ ⟨[55], 10, [], []⟩, fun n => n⟩
  | .webhook => ⟨.markCallbackReceived ⟨some [116], [55]⟩, fun n => 10 + n⟩

def started : ExampleConfirmationFlow :=
  newFlow [116] ⟨some [116], none⟩ ⟨[55], 10, [], []⟩ 0

def stored : ExampleConfirmationFlow := callbackUpdate started 10 11

def after : StoreTrace Party × StorePool Party :=
  replay answer (storePool ∅ calls) [.user, .webhook, .webhook]

theorem run : StoreRun ∅ calls after.1 after.2 := replay_exec (fun _ _ _ => rfl) _ _

theorem trace : after.1 = [(.user, ⟨.put [116] started, ()⟩),
    (.webhook, ⟨.get [116], some started⟩), (.webhook, ⟨.put [116] stored, ()⟩)] := rfl

theorem fresh : FreshIds calls := by
  rintro i j id f g ⟨_, _, is, _⟩ ⟨_, _, is', _⟩
  match i, j with
  | .user, .user => rfl
  | .user, .webhook => cases is'
  | .webhook, _ => cases is

end StartThenCallback

theorem started_flow_recorded :
    SameOrigin StartThenCallback.stored StartThenCallback.started :=
  ((journal_faithful StartThenCallback.run StartThenCallback.fresh).2.1
    [116] StartThenCallback.stored (by decide)).2 .user StartThenCallback.started
    ⟨⟨_, _, rfl, rfl, rfl⟩, by rw [StartThenCallback.trace]; simp⟩

end RusAuthExample
