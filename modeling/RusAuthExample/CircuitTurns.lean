import Mathlib.Data.Fintype.Basic
import RusAuthExample.PageLifecycle

/-!
The dispatcher of a circuit. It runs one piece of code at a time, and a piece goes
on until its code awaits RusAuth or ends. The handlers are called on the thread
of whoever publishes, so callbacks have no circuit and wait for nobody.
-/
namespace RusAuthExample
open OperationPrograms InterleavedRuns

variable {S : Signature} {X A σ ι : Type}

/-- The circuit whose dispatcher runs the task, if there is one. -/
def AppTask.circuit : AppTask → Option SessionId
  | .openPage page => some page.session
  | .disposePage page => some page.session
  | .edit page _ => some page.session
  | .submit page => some page.session
  | .checkStatus page => some page.session
  | .refresh page => some page.session
  | .callback _ => none
  | .decide _ _ => none

def AtRusAuth : (S.sum (rusAuthSig.sum hostSig)).Op → Prop
  | .inr (.inl _) => True
  | _ => False

/-- The operation gets its answer from RusAuth, or lets it arrive. -/
def Waits : (S.sum (rusAuthSig.sum hostSig)).Op → Prop
  | .inr (.inl (.callToConfirm _)) => True
  | .inr (.inl (.checkConfirmation _)) => True
  | .inr (.inr .arrive) => True
  | _ => False

def Arrives : (S.sum (rusAuthSig.sum hostSig)).Op → Prop
  | .inr (.inr .arrive) => True
  | _ => False

instance : DecidablePred (AtRusAuth (S := S))
  | .inl _ => .isFalse id
  | .inr (.inl _) => .isTrue trivial
  | .inr (.inr _) => .isFalse id

instance : DecidablePred (Waits (S := S)) := fun e => by
  unfold Waits
  split <;> infer_instance

instance : DecidablePred (Arrives (S := S)) := fun e => by
  unfold Arrives
  split <;> infer_instance

def Awaiting : Prog (S.sum (rusAuthSig.sum hostSig)) X A → Prop
  | .op e _ => Waits e
  | _ => False

instance : DecidablePred (Awaiting (S := S) (X := X) (A := A))
  | .op e _ => inferInstanceAs (Decidable (Waits e))
  | .ret _ => .isFalse id
  | .raise _ => .isFalse id

theorem awaiting_op {rest : Prog (S.sum (rusAuthSig.sum hostSig)) X A} (awaits : Awaiting rest) :
    ∃ e next, rest = .op e next ∧ Waits e := by
  cases rest with
  | op e next => exact ⟨e, next, rfl, awaits⟩
  | ret a => exact awaits.elim
  | raise x => exact awaits.elim

/-- No piece of the task's code is running: it has not begun, it is over, or it
    awaits RusAuth. -/
def AtRest (past : List (Performed (S.sum (rusAuthSig.sum hostSig))))
    (rest : Prog (S.sum (rusAuthSig.sum hostSig)) X A) : Prop :=
  past = [] ∨ Finished rest ∨ Awaiting rest

instance (past : List (Performed (S.sum (rusAuthSig.sum hostSig))))
    (rest : Prog (S.sum (rusAuthSig.sum hostSig)) X A) : Decidable (AtRest past rest) :=
  inferInstanceAs (Decidable (_ ∨ _))

theorem not_at_rest_op {past : List (Performed (S.sum (rusAuthSig.sum hostSig)))}
    {e : (S.sum (rusAuthSig.sum hostSig)).Op}
    {next : (S.sum (rusAuthSig.sum hostSig)).Answer e → Prog (S.sum (rusAuthSig.sum hostSig)) X A}
    (begun : past ≠ []) (moves : ¬ Waits e) : ¬ AtRest past (.op e next) := by
  intro rest
  rcases rest with empty | ended | awaits
  · exact begun empty
  · exact ended e next rfl
  · exact moves awaits

/-- A step of a circuit is taken while its other tasks are at rest. What RusAuth
    does, it does at any time. -/
def TakesTurns [DecidableEq ι] (circuit : ι → Option SessionId) (tr : OuterTrace S ι)
    (m : Pool (S.sum (rusAuthSig.sum hostSig)) X A σ ι)
    (l : Label (S.sum (rusAuthSig.sum hostSig)) ι) : Prop :=
  AtRusAuth l.2.1 ∨ ∀ j, j ≠ l.1 → circuit j = circuit l.1 → circuit j ≠ none →
    AtRest (own j tr) (m.task j)

instance [DecidableEq ι] [Fintype ι] (circuit : ι → Option SessionId) (tr : OuterTrace S ι)
    (m : Pool (S.sum (rusAuthSig.sum hostSig)) X A σ ι)
    (l : Label (S.sum (rusAuthSig.sum hostSig)) ι) : Decidable (TakesTurns circuit tr m l) :=
  inferInstanceAs (Decidable (_ ∨ _))

end RusAuthExample
