import RusAuthExample.KeyedProjection
import RusAuthExample.StoreSerialization

/-!
Transactions do not interfere. Every call of the store reads and writes under
the one id it names, so the steps of the calls on other ids can be deleted from
a run, and nothing about this id changes.
-/
namespace RusAuthExample
open Utf16Text OperationPrograms InterleavedRuns KeyedMemory

variable {ι : Type}

def Names (calls : ι → ClockedCall) (t : Str) (i : ι) : Bool := (calls i).call.named = some t

def stepsNaming (calls : ι → ClockedCall) (t : Str) (tr : StoreTrace ι) : StoreTrace ι :=
  tr.filter fun l => Names calls t l.1

/-- The same record for `t`, and every call naming `t` has returned the same or
    has the same left to do. -/
structure SameFor (calls : ι → ClockedCall) (t : Str) (p q : StorePool ι) : Prop where
  record : p.shared.lookup t = q.shared.lookup t
  calls : ∀ i, (calls i).call.named = some t → p.task i = q.task i

theorem access_key (call : StoreCall) (clock : Nat → DateTime) :
    (call.access clock).key? = call.named := by
  cases call with
  | start response request => rcases response with ⟨_ | _, _⟩ <;> rfl
  | get t => rfl
  | markCallbackReceived request => rcases request with ⟨_ | _, _⟩ <;> rfl
  | markManualStatus t status => rfl

theorem names_iff {calls : ι → ClockedCall} {t : Str} (i : ι) :
    Names calls t i = true ↔ (calls i).access.key? = some t := by
  rw [Names, decide_eq_true_iff, ClockedCall.access, access_key]

theorem pool_apart (journal : Journal) (calls : ι → ClockedCall) (t : Str) :
    Apart t (Names calls t) (storePool journal calls) := by
  rw [store_pool_eq]
  exact apart_start names_iff journal

theorem same_for_of_agree {calls : ι → ClockedCall} {t : Str} {p q : StorePool ι}
    (agree : AgreeAt t (Names calls t) p q) : SameFor calls t p q :=
  ⟨agree.record, fun i named => agree.clients i (decide_eq_true named)⟩

variable [DecidableEq ι]

/-- Deleting the steps of the calls on other ids leaves a run with the same end
    for `t`. Hence two runs with the same calls on `t`, taking their turns in the
    same order, take the same steps and agree on `t`, whatever else they do. -/
theorem transactions_isolated {journal : Journal} {calls : ι → ClockedCall} {tr : StoreTrace ι}
    {q : StorePool ι} (run : StoreRun journal calls tr q) (t : Str) :
    (∃ q', StoreRun journal calls (stepsNaming calls t tr) q' ∧ SameFor calls t q q') ∧
    ∀ journal' calls' tr' q', StoreRun journal' calls' tr' q' →
      journal.lookup t = journal'.lookup t →
      (∀ i, (calls i).call.named = some t ∨ (calls' i).call.named = some t → calls i = calls' i) →
      (stepsNaming calls t tr).map Prod.fst = (stepsNaming calls' t tr').map Prod.fst →
      stepsNaming calls t tr = stepsNaming calls' t tr' ∧ SameFor calls t q q' := by
  constructor
  · obtain ⟨q', thinned, agree⟩ := exec_project (pool_apart journal calls t) run
      (r := storePool journal calls) ⟨rfl, fun _ _ => rfl⟩
    exact ⟨q', thinned, same_for_of_agree agree⟩
  · intro journal' calls' tr' q' run' record same turns
    have marks : Names calls' t = Names calls t := by
      funext i
      by_cases named : (calls i).call.named = some t
      · rw [Names, Names, same i (Or.inl named)]
      · by_cases named' : (calls' i).call.named = some t
        · rw [Names, Names, same i (Or.inr named')]
        · simp [Names, named, named']
    have start : AgreeAt t (Names calls t) (storePool journal calls) (storePool journal' calls') := by
      refine ⟨record, fun i named => ?_⟩
      have equal : calls i = calls' i := same i (Or.inl (of_decide_eq_true named))
      show (calls i).body = (calls' i).body
      rw [equal]
    have apart' := pool_apart journal' calls' t
    simp only [stepsNaming, marks] at turns apart' ⊢
    obtain ⟨steps, agree⟩ := runs_agree (pool_apart journal calls t) apart' start run run' turns
    exact ⟨steps, same_for_of_agree agree⟩

namespace TwoTransactions

inductive Party where
  | start
  | callback
  | other
  deriving DecidableEq

def calls : Party → ClockedCall
  | .start => ⟨.start ⟨some [116], none⟩ ⟨[55], 10, [], []⟩, fun n => n⟩
  | .callback => ⟨.markCallbackReceived ⟨some [116], [55]⟩, fun n => 10 + n⟩
  | .other => ⟨.start ⟨some [117], none⟩ ⟨[56], 10, [], []⟩, fun n => 20 + n⟩

def after : StoreTrace Party × StorePool Party :=
  replay answer (storePool ∅ calls) [.start, .callback, .other, .callback]

theorem run : StoreRun ∅ calls after.1 after.2 := replay_exec (fun _ _ _ => rfl) _ _

end TwoTransactions

theorem other_start_deleted :
    (stepsNaming TwoTransactions.calls [116] TwoTransactions.after.1).length = 3 ∧
    ∃ q', StoreRun ∅ TwoTransactions.calls
        (stepsNaming TwoTransactions.calls [116] TwoTransactions.after.1) q' ∧
      SameFor TwoTransactions.calls [116] TwoTransactions.after.2 q' :=
  ⟨by decide, (transactions_isolated TwoTransactions.run [116]).1⟩

end RusAuthExample
