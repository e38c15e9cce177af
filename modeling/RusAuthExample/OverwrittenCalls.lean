import RusAuthExample.OverlaidWrites
import RusAuthExample.StoreSerialization

/-!
What concurrent calls of the store can leave in the journal, with no assumption
on their timing. The updates are not compared before they are written, so an
update may erase what was recorded while it was under way. It can do no more: a
record is always what some of the calls, run one at a time, leave, and only a
call whose write an update had not seen is missing from them.
-/
namespace RusAuthExample
open Utf16Text OperationPrograms InterleavedRuns KeyedMemory

def Updates : StoreCall → Str → Prop
  | .markCallbackReceived request, id => request.transactionId = some id
  | .markManualStatus transactionId _, id => transactionId = id
  | _, _ => False

theorem updates_of_access {c : ClockedCall} {id : Str}
    {f : ExampleConfirmationFlow → ExampleConfirmationFlow} (shape : c.access = .update id f) :
    Updates c.call id := by
  obtain ⟨call, clock⟩ := c
  cases call with
  | start response request =>
    rcases response with ⟨_ | _, _⟩ <;> cases shape
  | get transactionId => cases shape
  | markCallbackReceived request =>
    rcases request with ⟨_ | _, _⟩
    · cases shape
    · cases shape
      rfl
  | markManualStatus transactionId status =>
    cases shape
    rfl

variable {ι : Type}

/-- Run one at a time, the calls of the order leave `found` under the
    transaction. They wrote it in this order, the last writer is among them, and
    each writer left out wrote between the read and the write-back of an update. -/
structure AccountsFor (calls : ι → ClockedCall) (journal : Journal) (tr : StoreTrace ι) (id : Str)
    (order : List ι) (found : Option ExampleConfirmationFlow) : Prop where
  some_writers : order.Sublist (writers id tr)
  once : order.Nodup
  last : order.getLast? = (writers id tr).getLast?
  result : (runInOrder calls journal order).lookup id = found
  lost : ∀ j ∈ writers id tr, j ∉ order →
    ∃ i ∈ order, Updates (calls i).call id ∧ Overlaid id tr j i

variable [DecidableEq ι]

theorem accounted_for {journal : Journal} {calls : ι → ClockedCall} {tr : StoreTrace ι}
    {q : StorePool ι} (run : StoreRun journal calls tr q) (id : Str) :
    ∃ order, AccountsFor calls journal tr id order (q.shared.lookup id) := by
  rw [StoreRun, store_pool_eq] at run
  have explained := explained_run run id
  obtain ⟨order, explains⟩ := explained.stored
  refine ⟨order, ?_⟩
  constructor
  case some_writers => exact explains.some_writers
  case once => exact explains.some_writers.nodup explained.once
  case last => exact explains.last
  case result =>
    rw [run_in_order_eq]
    exact explains.result
  case lost =>
    intro j wrote out
    obtain ⟨i, listed, lost⟩ := explains.lost j wrote out
    obtain ⟨f, shape⟩ := update_of_overlaid run lost
    exact ⟨i, listed, updates_of_access shape, lost⟩

/-- At every moment of any interleaving of any calls, each record is accounted
    for by the calls that wrote it; without overlaid writes, by all of them. -/
theorem overwritten_updates_only {journal : Journal} {calls : ι → ClockedCall}
    {tr : StoreTrace ι} {q : StorePool ι} (run : StoreRun journal calls tr q) (id : Str) :
    (∃ order, AccountsFor calls journal tr id order (q.shared.lookup id)) ∧
    ((∀ j i, ¬ Overlaid id tr j i) →
      (runInOrder calls journal (writers id tr)).lookup id = q.shared.lookup id) := by
  refine ⟨accounted_for run id, ?_⟩
  intro apart
  rw [StoreRun, store_pool_eq] at run
  rw [run_in_order_eq]
  exact order_of_not_overlaid run apart

theorem stale_check_overlays_callback : Overlaid StaleCheck.id StaleCheck.overlapping.1 0 1 := by
  have run : StoreRun StaleCheck.journal StaleCheck.calls StaleCheck.overlapping.1
      StaleCheck.overlapping.2 := replay_exec (fun _ _ _ => rfl) _ _
  obtain ⟨⟨order, accounts⟩, _⟩ := overwritten_updates_only run StaleCheck.id
  have wrote : writers StaleCheck.id StaleCheck.overlapping.1 = [0, 1] := by decide
  have listed := accounts.some_writers
  rw [wrote] at listed
  have missing : 0 ∉ order := by
    intro member
    have checked : 1 ∈ order := by
      apply List.mem_of_getLast?
      rw [accounts.last, wrote]
      rfl
    have distinct : [(0 : Fin 2), 1].Nodup := by decide
    have both : order = [0, 1] :=
      listed.eq_of_length_le (distinct.subperm (by simp [member, checked])).length_le
    subst both
    have callback := congrArg (Option.map (·.callbackReceivedOn)) accounts.result
    exact absurd callback (by decide)
  obtain ⟨i, member, _, lost⟩ := accounts.lost 0 (by simp [wrote]) missing
  have other : i = 1 := by
    rcases Fin.exists_fin_two.mp ⟨i, rfl⟩ with zero | one
    · exact absurd (zero ▸ member) missing
    · exact one
  exact other ▸ lost

end RusAuthExample
