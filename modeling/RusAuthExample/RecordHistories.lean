import RusAuthExample.OverwrittenCalls

/-!
What the columns of a record mean. However the calls of the store interleave, a
record is the record of one start with, in each column, the entry of the last
call that makes one: the status of the last verdict, the completion date of the
last deciding one, the dates of the last callback and of the last check.
-/
namespace RusAuthExample
open Utf16Text OperationPrograms InterleavedRuns KeyedMemory

namespace ClockedCall

def verdict (c : ClockedCall) : Option CallConfirmationStatus :=
  match c.call with
  | .markCallbackReceived _ => some .success
  | .markManualStatus _ status => some status
  | _ => none

/-- The completion date an update enters; a waiting status enters none. -/
def completes (c : ClockedCall) : Option DateTime :=
  match c.call with
  | .markCallbackReceived _ => some (c.clock 0)
  | .markManualStatus _ status => if status = .unhandled then none else some (c.clock 0)
  | _ => none

def receives (c : ClockedCall) : Option DateTime :=
  match c.call with
  | .markCallbackReceived _ => some (c.clock 1)
  | _ => none

def checks (c : ClockedCall) : Option DateTime :=
  match c.call with
  | .markManualStatus _ status => some (if status = .unhandled then c.clock 0 else c.clock 1)
  | _ => none

end ClockedCall

variable {ι α : Type}

def lastEntry (entry : ClockedCall → Option α) (calls : List ClockedCall) : Option α :=
  (calls.filterMap entry).getLast?

theorem last_entry_snoc (entry : ClockedCall → Option α) (calls : List ClockedCall)
    (c : ClockedCall) :
    lastEntry entry (calls ++ [c]) = (entry c).or (lastEntry entry calls) := by
  unfold lastEntry
  rw [List.filterMap_append]
  cases makes : entry c <;> simp [makes]

def recordOf (born : ExampleConfirmationFlow) (updates : List ClockedCall) :
    ExampleConfirmationFlow :=
  { born with
    status := (lastEntry ClockedCall.verdict updates).getD born.status
    completedOn := (lastEntry ClockedCall.completes updates).or born.completedOn
    callbackReceivedOn := (lastEntry ClockedCall.receives updates).or born.callbackReceivedOn
    lastManualCheckOn := (lastEntry ClockedCall.checks updates).or born.lastManualCheckOn }

theorem record_of_snoc {c : ClockedCall} {id : Str}
    {f : ExampleConfirmationFlow → ExampleConfirmationFlow} (shape : c.access = .update id f)
    (born : ExampleConfirmationFlow) (updates : List ClockedCall) :
    recordOf born (updates ++ [c]) = f (recordOf born updates) := by
  obtain ⟨call, clock⟩ := c
  simp only [recordOf, last_entry_snoc]
  cases call with
  | start response request =>
    rcases response with ⟨_ | _, _⟩ <;> cases shape
  | get transactionId => cases shape
  | markCallbackReceived request =>
    rcases request with ⟨_ | _, _⟩
    · cases shape
    · cases shape
      simp [ClockedCall.verdict, ClockedCall.completes, ClockedCall.receives, ClockedCall.checks,
        callbackWith, callbackUpdate]
  | markManualStatus transactionId status =>
    cases shape
    by_cases waiting : status = .unhandled <;>
      simp [ClockedCall.verdict, ClockedCall.completes, ClockedCall.receives, ClockedCall.checks,
        manualWith, manualUpdate, waiting]

structure Begins (calls : ι → ClockedCall) (id : Str) (order before : List ι) (s : ι)
    (after : List ι) (flow : ExampleConfirmationFlow) : Prop where
  split : order = before ++ s :: after
  updates : ∀ i ∈ after, Updates (calls i).call id
  record : ∃ response request, (calls s).call = .start response request ∧
    response.transactionId = some id ∧
    flow = recordOf (newFlow id response request ((calls s).clock 0)) (after.map calls)

theorem start_of_access {c : ClockedCall} {id : Str} {flow : ExampleConfirmationFlow}
    (shape : c.access = .write id flow) : ∃ response request, c.call = .start response request ∧
      response.transactionId = some id ∧ flow = newFlow id response request (c.clock 0) := by
  obtain ⟨call, clock⟩ := c
  cases call with
  | start response request =>
    rcases response with ⟨_ | _, number⟩
    · cases shape
    · cases shape
      exact ⟨_, request, rfl, rfl, rfl⟩
  | get transactionId => cases shape
  | markCallbackReceived request =>
    rcases request with ⟨_ | _, _⟩ <;> cases shape
  | markManualStatus transactionId status => cases shape

theorem serial_record {calls : ι → ClockedCall} {id : Str} {order : List ι}
    (writes : ∀ i ∈ order, (∃ flow, (calls i).access = .write id flow) ∨
      ∃ f, (calls i).access = .update id f) {flow : ExampleConfirmationFlow}
    (stored : (serial (fun i => (calls i).access) (∅ : Journal) order).lookup id = some flow) :
    ∃ before s after, Begins calls id order before s after flow := by
  induction order using List.reverseRecOn generalizing flow with
  | nil =>
    rw [serial, List.foldl_nil, AList.lookup_empty] at stored
    cases stored
  | append_singleton order i ih =>
    rw [serial_snoc] at stored
    rcases writes i (by simp) with ⟨new, shape⟩ | ⟨f, shape⟩
    · rw [shape, alone_write, AList.lookup_insert, Option.some.injEq] at stored
      subst stored
      obtain ⟨response, request, is, names, same⟩ := start_of_access shape
      refine ⟨order, i, [], rfl, by simp, response, request, is, names, ?_⟩
      rw [same]
      rfl
    · rw [shape, alone_update] at stored
      cases found : (serial (fun i => (calls i).access) (∅ : Journal) order).lookup id with
      | none =>
        rw [found] at stored
        cases found.symm.trans stored
      | some old =>
        rw [found, AList.lookup_insert, Option.some.injEq] at stored
        subst stored
        obtain ⟨before, s, after, begins⟩ :=
          ih (fun j member => writes j (List.mem_append_left _ member)) found
        obtain ⟨response, request, is, names, same⟩ := begins.record
        refine ⟨before, s, after ++ [i], ?_, ?_, response, request, is, names, ?_⟩
        · rw [begins.split]
          simp
        · intro j member
          rcases List.mem_append.mp member with old | new
          · exact begins.updates j old
          · rw [List.mem_singleton.mp new]
            exact updates_of_access shape
        · rw [List.map_append, List.map_singleton, record_of_snoc shape, ← same]

variable [DecidableEq ι]

/-- At every moment of any interleaving of any calls, beginning with an empty
    journal, each record has the last entries of the calls that account for it. -/
theorem columns_are_last_entries {calls : ι → ClockedCall} {tr : StoreTrace ι} {q : StorePool ι}
    (run : StoreRun ∅ calls tr q) {id : Str} {flow : ExampleConfirmationFlow}
    (stored : q.shared.lookup id = some flow) :
    ∃ order before s after, AccountsFor calls ∅ tr id order (some flow) ∧
      Begins calls id order before s after flow := by
  obtain ⟨order, accounts⟩ := accounted_for run id
  rw [stored] at accounts
  have written := run
  rw [StoreRun, store_pool_eq] at written
  have writes : ∀ i ∈ order, (∃ flow, (calls i).access = .write id flow) ∨
      ∃ f, (calls i).access = .update id f := by
    intro i member
    exact writer_access written (accounts.some_writers.subset member)
  have result := accounts.result
  rw [run_in_order_eq] at result
  obtain ⟨before, s, after, begins⟩ := serial_record writes result
  exact ⟨order, before, s, after, accounts, begins⟩

/- A start, a callback and a waiting check, where the check overlaps the callback. -/
namespace StartedStaleCheck

def calls : Fin 3 → ClockedCall
  | 0 => ⟨.start ⟨some [116], none⟩ ⟨[55], 10, [], []⟩, fun n => 1 + n⟩
  | 1 => ⟨.markCallbackReceived ⟨some [116], [55]⟩, fun n => 10 + n⟩
  | 2 => ⟨.markManualStatus [116] .unhandled, fun n => 20 + n⟩

def overlapping : StoreTrace (Fin 3) × StorePool (Fin 3) :=
  replay answer (storePool ∅ calls) [0, 2, 1, 1, 2]

theorem run : StoreRun ∅ calls overlapping.1 overlapping.2 := replay_exec (fun _ _ _ => rfl) _ _

def shown : ExampleConfirmationFlow :=
  recordOf (newFlow [116] ⟨some [116], none⟩ ⟨[55], 10, [], []⟩ 1) [calls 2]

end StartedStaleCheck

theorem overwritten_callback_unaccounted :
    ∃ order before s after, AccountsFor StartedStaleCheck.calls ∅ StartedStaleCheck.overlapping.1
        [116] order (some StartedStaleCheck.shown) ∧
      Begins StartedStaleCheck.calls [116] order before s after StartedStaleCheck.shown :=
  columns_are_last_entries StartedStaleCheck.run (by decide)

end RusAuthExample
