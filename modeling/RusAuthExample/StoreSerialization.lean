import Mathlib.Data.List.Permutation
import RusAuthExample.ConfirmationStore

/-!
Concurrent calls of the store at the granularity of its dictionary accesses.
The dictionary is a ConcurrentDictionary held by a singleton, yet the updates
read a record and put a whole copy back without comparing: a copy that went
stale in between erases what was recorded meanwhile.
-/
namespace RusAuthExample
open Utf16Text OperationPrograms InterleavedRuns KeyedMemory

/-- A call together with the clock readings it is going to make, in order. -/
structure ClockedCall where
  call : StoreCall
  clock : Nat → DateTime

namespace ClockedCall

def body (c : ClockedCall) : Prog (keyed Str ExampleConfirmationFlow) Exn
    (Option ExampleConfirmationFlow) := c.call.body.feed c.clock

def access (c : ClockedCall) : Access Str ExampleConfirmationFlow Exn := c.call.access c.clock

def alone (c : ClockedCall) (journal : Journal) : Journal := (c.body.exec answer journal).2

end ClockedCall

variable {ι : Type}

abbrev StorePool (ι : Type) := Clients Str ExampleConfirmationFlow Exn ι

abbrev StoreTrace (ι : Type) := List (Label (keyed Str ExampleConfirmationFlow) ι)

def storePool (journal : Journal) (calls : ι → ClockedCall) : StorePool ι :=
  ⟨journal, fun i => (calls i).body⟩

abbrev StoreRun [DecidableEq ι] (journal : Journal) (calls : ι → ClockedCall) (tr : StoreTrace ι)
    (q : StorePool ι) : Prop := Exec (fun _ => effect) (storePool journal calls) tr q

theorem store_pool_eq (journal : Journal) (calls : ι → ClockedCall) :
    storePool journal calls = KeyedMemory.start (fun i => (calls i).access) journal :=
  congrArg (Pool.mk journal) (funext fun i => (calls i).call.feed_body (calls i).clock)

def runInOrder (calls : ι → ClockedCall) (journal : Journal) (order : List ι) : Journal :=
  order.foldl (fun j i => (calls i).alone j) journal

theorem run_in_order_eq (calls : ι → ClockedCall) (journal : Journal) (order : List ι) :
    runInOrder calls journal order = serial (fun i => (calls i).access) journal order := by
  have same : ∀ i j, (calls i).alone j = (calls i).access.alone j := fun i j =>
    congrArg (fun p => (Prog.exec answer p j).2) ((calls i).call.feed_body (calls i).clock)
  simp only [runInOrder, serial, same]

def Serializable {n : Nat} (calls : Fin n → ClockedCall) (journal final : Journal) : Prop :=
  ∃ order, order.Perm (List.finRange n) ∧
    ∀ id, (runInOrder calls journal order).lookup id = final.lookup id

variable [DecidableEq ι]

/-- No write of a manual check takes a recorded callback back, and no write of
    a callback takes a recorded manual check back. -/
def NoUpdateErased (journal : Journal) (calls : ι → ClockedCall) (tr : StoreTrace ι) : Prop :=
  ∀ xs ys i id flow current p, tr = xs ++ (i, ⟨.put id flow, ()⟩) :: ys →
    StoreRun journal calls xs p → p.shared.lookup id = some current →
    (∀ t status, (calls i).call = .markManualStatus t status →
      flow.callbackReceivedOn = current.callbackReceivedOn) ∧
    (∀ request, (calls i).call = .markCallbackReceived request →
      flow.lastManualCheckOn = current.lastManualCheckOn)

/-- The fields the call carries over from the record it read are still those of
    the current record: the two differ at most where the call overwrites. -/
def CarriesOver : StoreCall → ExampleConfirmationFlow → ExampleConfirmationFlow → Prop
  | .markCallbackReceived _, read, current =>
    { current with
      status := read.status
      completedOn := read.completedOn
      callbackReceivedOn := read.callbackReceivedOn } = read
  | .markManualStatus _ status, read, current =>
    { current with
      status := read.status
      completedOn := if status = .unhandled then current.completedOn else read.completedOn
      lastManualCheckOn := read.lastManualCheckOn } = read
  | _, _, _ => True

/-- Whenever an update of the run writes, what it carries over is current. -/
def CarriesCurrentFields (journal : Journal) (calls : ι → ClockedCall) (tr : StoreTrace ι) :
    Prop :=
  ∀ xs ys i id flow read current p, tr = xs ++ (i, ⟨.put id flow, ()⟩) :: ys →
    StoreRun journal calls xs p → (i, ⟨.get id, some read⟩) ∈ xs →
    p.shared.lookup id = some current → CarriesOver (calls i).call read current

theorem callback_update_of_carries {request : RusAuthConfirmationWebHookRequest}
    {read current : ExampleConfirmationFlow} (c r : DateTime)
    (same : CarriesOver (.markCallbackReceived request) read current) :
    callbackUpdate read c r = callbackUpdate current c r := by
  rw [← show _ = read from same]
  rfl

theorem manual_update_of_carries {t : Str} {status : CallConfirmationStatus}
    {read current : ExampleConfirmationFlow} (c : Option DateTime) (m : DateTime)
    (same : CarriesOver (.markManualStatus t status) read current) :
    manualUpdate read status c m = manualUpdate current status c m := by
  rw [← show _ = read from same]
  rfl

theorem completed_of_carries {t : Str} {read current : ExampleConfirmationFlow}
    (same : CarriesOver (.markManualStatus t .unhandled) read current) :
    read.completedOn = current.completedOn := by
  rw [← show _ = read from same]
  rfl

theorem update_of_carries {c : ClockedCall} {k : Str}
    {f : ExampleConfirmationFlow → ExampleConfirmationFlow} (shape : c.access = .update k f)
    {read current : ExampleConfirmationFlow} (same : CarriesOver c.call read current) :
    f read = f current := by
  obtain ⟨call, clock⟩ := c
  cases call with
  | start response request =>
    rcases response with ⟨_ | _, _⟩ <;> cases shape
  | get t => cases shape
  | markCallbackReceived request =>
    rcases request with ⟨_ | _, _⟩
    · cases shape
    · cases shape
      exact callback_update_of_carries _ _ same
  | markManualStatus t status =>
    cases shape
    by_cases waiting : status = .unhandled
    · subst waiting
      simp only [manualWith, if_true, completed_of_carries same]
      exact manual_update_of_carries _ _ same
    · simp only [manualWith, waiting, if_false]
      exact manual_update_of_carries _ _ same

section Runs
variable {journal : Journal} {calls : ι → ClockedCall} {tr : StoreTrace ι}

theorem written_from_read {p : StorePool ι} (run : StoreRun journal calls tr p) {i : ι} {k id : Str}
    {f : ExampleConfirmationFlow → ExampleConfirmationFlow} {flow : ExampleConfirmationFlow}
    {next : Unit → Prog (keyed Str ExampleConfirmationFlow) Exn (Option ExampleConfirmationFlow)}
    (shape : (calls i).access = .update k f) (ready : p.task i = .op (.put id flow) next) :
    ∃ read, (i, ⟨.get id, some read⟩) ∈ tr ∧ id = k ∧ flow = f read := by
  have path := exec_path run i
  rw [store_pool_eq, ready] at path
  change Prog.Path (calls i).access.prog _ _ at path
  rw [shape] at path
  obtain ⟨read, ops, rfl, written⟩ := write_back_after_read path
  exact ⟨read, mem_own.mp (by rw [ops]; simp), rfl, written⟩

theorem put_ready {p q : StorePool ι} {i : ι} {id : Str} {flow : ExampleConfirmationFlow}
    (step : Step (fun _ => effect) p (i, ⟨.put id flow, ()⟩) q) :
    ∃ next, p.task i = .op (.put id flow) next := by
  cases step with
  | act ready did => exact ⟨_, ready⟩

theorem writes_back_fresh {q : StorePool ι} (run : StoreRun journal calls tr q)
    (carried : CarriesCurrentFields journal calls tr) :
    WritesBackFresh (fun i => (calls i).access) journal tr := by
  intro xs ys i k f u w p cut before shape found
  rw [← store_pool_eq] at before
  subst cut
  obtain ⟨p', _, before', step, _⟩ := exec_at run
  obtain ⟨next, ready⟩ := put_ready step
  obtain ⟨read, seen, _, rfl⟩ := written_from_read before' shape ready
  exact update_of_carries shape (carried xs ys i k _ read w p rfl before seen found)

theorem no_update_erased {q : StorePool ι} (run : StoreRun journal calls tr q)
    (carried : CarriesCurrentFields journal calls tr) : NoUpdateErased journal calls tr := by
  intro xs ys i id flow current p cut before found
  subst cut
  obtain ⟨p', _, before', step, _⟩ := exec_at run
  obtain ⟨next, ready⟩ := put_ready step
  have fresh : ∀ {k f}, (calls i).access = .update k f → flow = f current := by
    intro k f shape
    obtain ⟨read, seen, _, rfl⟩ := written_from_read before' shape ready
    exact update_of_carries shape (carried xs ys i id _ read current p rfl before seen found)
  constructor
  · intro t status is
    have shape : (calls i).access = .update t (manualWith status (calls i).clock) := by
      rw [ClockedCall.access, is]
      rfl
    rw [fresh shape, manualWith]
    split <;> rfl
  · intro request is
    cases names : request.transactionId with
    | some t =>
      have shape : (calls i).access = .update t (callbackWith (calls i).clock) := by
        rw [ClockedCall.access, is, StoreCall.access, names]
      rw [fresh shape]
      rfl
    | none =>
      -- a null key raised before the first access, so this call writes nothing
      have shape : (calls i).access = .refuse .argumentNull := by
        rw [ClockedCall.access, is, StoreCall.access, names]
      have path := exec_path before' i
      rw [store_pool_eq, ready] at path
      change Prog.Path (calls i).access.prog _ _ at path
      rw [shape] at path
      cases (Prog.path_raise path).2

end Runs

/-- Any finite collection of calls, in any interleaving of its reads and writes
    in which all of them finish: if every update carries over current fields
    only, then some order of the same calls run one at a time leaves the same
    journal, and no recorded callback or manual check is erased on the way. -/
theorem interleaved_calls_serializable {n : Nat} {journal : Journal} {calls : Fin n → ClockedCall}
    {tr : StoreTrace (Fin n)} {q : StorePool (Fin n)} (run : StoreRun journal calls tr q)
    (finished : ∀ i, Finished (q.task i)) (carried : CarriesCurrentFields journal calls tr) :
    Serializable calls journal q.shared ∧ NoUpdateErased journal calls tr := by
  refine ⟨?_, no_update_erased run carried⟩
  have fresh := writes_back_fresh run carried
  rw [StoreRun, store_pool_eq] at run
  obtain ⟨_, done⟩ := serial_order_exists run fresh
  obtain ⟨order, perm, memory⟩ :=
    serial_order_of_all done (List.nodup_finRange n) List.mem_finRange finished
  exact ⟨order, perm, fun id => by rw [run_in_order_eq, memory]⟩

/- Two overlapping callbacks for one transaction: each overwrites every field in
   which its copy can be stale. -/
namespace TwoCallbacks

def id : Str := [116]

def flow : ExampleConfirmationFlow := newFlow id ⟨some id, none⟩ ⟨[55], 10, [], []⟩ 1

def journal : Journal := (∅ : Journal).insert id flow

def calls (i : Fin 2) : ClockedCall :=
  ⟨.markCallbackReceived ⟨some id, [55]⟩, fun n => 10 * (i + 1) + n⟩

def after (schedule : List (Fin 2)) : StoreTrace (Fin 2) × StorePool (Fin 2) :=
  replay answer (storePool journal calls) schedule

theorem run (schedule : List (Fin 2)) :
    StoreRun journal calls (after schedule).1 (after schedule).2 :=
  replay_exec (fun _ _ _ => rfl) _ _

def reads : StoreTrace (Fin 2) := [(0, ⟨.get id, some flow⟩), (1, ⟨.get id, some flow⟩)]

def written (i : Fin 2) : ExampleConfirmationFlow := callbackWith (calls i).clock flow

theorem carries : CarriesCurrentFields journal calls (after [0, 1, 1, 0]).1 := by
  intro xs ys i key flow' read current p cut before seen found
  have trace : reads ++ [(1, ⟨.put id (written 1), ()⟩), (0, ⟨.put id (written 0), ()⟩)] =
      xs ++ (i, ⟨.put key flow', ()⟩) :: ys := cut
  rcases xs with _ | ⟨a, _ | ⟨b, _ | ⟨c, _ | ⟨d, xs⟩⟩⟩⟩
  · cases trace
  · cases trace
  · cases trace
    obtain rfl := clients_unique before (run [0, 1])
    have same : read = flow := by simpa using seen
    have stored : (after [0, 1]).2.shared.lookup id = some flow := by decide
    obtain rfl : flow = current := Option.some.inj (stored.symm.trans found)
    subst same
    rfl
  · cases trace
    obtain rfl := clients_unique before (run [0, 1, 1])
    have same : read = flow := by simpa using seen
    have stored : (after [0, 1, 1]).2.shared.lookup id = some (written 1) := by decide
    obtain rfl : written 1 = current := Option.some.inj (stored.symm.trans found)
    subst same
    rfl
  · simp [reads] at trace

end TwoCallbacks

theorem overlapping_callbacks_serializable :
    Serializable TwoCallbacks.calls TwoCallbacks.journal
        (TwoCallbacks.after [0, 1, 1, 0]).2.shared ∧
      NoUpdateErased TwoCallbacks.journal TwoCallbacks.calls (TwoCallbacks.after [0, 1, 1, 0]).1 :=
  interleaved_calls_serializable (TwoCallbacks.run [0, 1, 1, 0]) (by decide) TwoCallbacks.carries

/- One transaction, a callback and a manual check that overlap: the check reads
   first and writes last, and its copy knows nothing of the callback. -/
namespace StaleCheck

def id : Str := [116]

def journal : Journal :=
  (∅ : Journal).insert id (newFlow id ⟨some id, none⟩ ⟨[55], 10, [], []⟩ 1)

def calls : Fin 2 → ClockedCall
  | 0 => ⟨.markCallbackReceived ⟨some id, [55]⟩, fun n => 10 + n⟩
  | 1 => ⟨.markManualStatus id .unhandled, fun n => 20 + n⟩

def overlapping : StoreTrace (Fin 2) × StorePool (Fin 2) :=
  replay answer (storePool journal calls) [1, 0, 0, 1]

end StaleCheck

/-- The callback finished, was erased, and no order of the two calls explains it. -/
theorem stale_check_erases_callback :
    StoreRun StaleCheck.journal StaleCheck.calls StaleCheck.overlapping.1 StaleCheck.overlapping.2 ∧
    (∀ i, Finished (StaleCheck.overlapping.2.task i)) ∧
    ¬ Serializable StaleCheck.calls StaleCheck.journal StaleCheck.overlapping.2.shared := by
  refine ⟨replay_exec (fun _ _ _ => rfl) _ _, by decide, ?_⟩
  rintro ⟨order, perm, same⟩
  have orders : order = [0, 1] ∨ order = [1, 0] := by
    have listed := List.mem_permutations'.mpr perm
    simpa [List.finRange_succ, List.permutations'] using listed
  have callback := congrArg (Option.map (·.callbackReceivedOn)) (same StaleCheck.id)
  rcases orders with rfl | rfl
  · exact absurd callback (by decide)
  · exact absurd callback (by decide)

end RusAuthExample
