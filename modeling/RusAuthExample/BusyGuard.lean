import Mathlib.Data.Fintype.OfMap
import RusAuthExample.CircuitTurns
import RusAuthExample.PageActions
import RusAuthExample.TaskHistories

/-!
The busy flag. A page raises it when an action begins and lowers it in the finally
block, and its buttons are disabled in between. The flag belongs to the page, the
session and the awaited call outlive it.
-/
namespace RusAuthExample
open Utf16Text OperationPrograms InterleavedRuns

variable {S : Signature} {ς ι : Type}

def AppTask.acts : AppTask → Option Page
  | .submit page => some page
  | .checkStatus page => some page
  | _ => none

theorem circuit_of_acts {task : AppTask} {page : Page} (acts : task.acts = some page) :
    task.circuit = some page.session := by
  cases task <;> cases acts <;> rfl

def busySet : (S.sum (rusAuthSig.sum hostSig)).Op → Option (Page × Bool)
  | .inr (.inr (.setIsBusy page isBusy)) => some (page, isBusy)
  | _ => none

theorem busy_set_outer {T : Signature} (e : (rusAuthSig.sum hostSig).Op) :
    busySet (S := S) (.inr e) = busySet (S := T) (.inr e) := by
  rcases e with e | e
  · rfl
  · cases e <;> rfl

inductive Phase where
  | unstarted
  | opening
  | busy
  | closed
  deriving DecidableEq

def Phase.after : Phase → FineSig.Op → Phase
  | .unstarted, _ => .opening
  | .opening, e => if (busySet e).isSome then .busy else .opening
  | .busy, e => if (busySet e).isSome then .closed else .busy
  | .closed, _ => .closed

def phase (past : List (Performed FineSig)) : Phase :=
  past.foldl (fun ph o => ph.after o.1) .unstarted

theorem phase_snoc (past : List (Performed FineSig)) (e : FineSig.Op) (a : FineSig.Answer e) :
    phase (past ++ [⟨e, a⟩]) = (phase past).after e := by
  simp [phase]

/-- What a task may do next: an action clears the page's error, then raises the
    flag, and lowers it last. -/
def Ordered : Option Page → Phase → FineSig.Op → Prop
  | none, _, e => busySet e = none ∧ ¬ Waits e
  | some page, .unstarted, e => e = .inr (.inr (.setLocalError page none))
  | some page, .opening, e => e = .inr (.inr (.setIsBusy page true))
  | some page, .busy, e => e = .inr (.inr (.setIsBusy page false)) ∨ busySet e = none
  | some _, .closed, _ => False

theorem ordered_waits {page : Page} {ph : Phase} {e : FineSig.Op}
    (ordered : Ordered (some page) ph e) (waits : Waits e) : ph = .busy := by
  cases ph with
  | busy => rfl
  | unstarted =>
    obtain rfl : e = _ := ordered
    exact waits.elim
  | opening =>
    obtain rfl : e = _ := ordered
    exact waits.elim
  | closed => exact ordered.elim

theorem ordered_set {acts : Option Page} {ph : Phase} {e : FineSig.Op} {page : Page} {isBusy : Bool}
    (ordered : Ordered acts ph e) (sets : busySet e = some (page, isBusy)) :
    acts = some page ∧ e = .inr (.inr (.setIsBusy page isBusy)) ∧
      (ph = .opening ∧ isBusy = true ∨ ph = .busy ∧ isBusy = false) := by
  cases acts with
  | none =>
    rw [ordered.1] at sets
    cases sets
  | some p =>
    cases ph with
    | unstarted =>
      obtain rfl : e = _ := ordered
      cases sets
    | opening =>
      obtain rfl : e = _ := ordered
      cases sets
      exact ⟨rfl, rfl, Or.inl ⟨rfl, rfl⟩⟩
    | busy =>
      rcases ordered with lowers | keeps
      · subst lowers
        cases sets
        exact ⟨rfl, rfl, Or.inr ⟨rfl, rfl⟩⟩
      · rw [keeps] at sets
        cases sets
    | closed => exact ordered.elim

section Tasks

def KeepsFlag : AppSig.Op → Prop := fun e => busySet e = none

def Aside : AppSig.Op → Prop := fun e => busySet e = none ∧ ¬ Waits e

theorem fine_uses {A : Type} {P : AppSig.Op → Prop} {Q : FineSig.Op → Prop} {p : AppM A}
    (uses : p.Uses P) (accesses : ∀ e : StoreSig.Op, Q (.inl e))
    (outer : ∀ e : (rusAuthSig.sum hostSig).Op, P (.inr e) → Q (.inr e)) :
    (p.interp withAccesses).Uses Q := by
  refine Prog.uses_interp uses fun e used => ?_
  cases e with
  | inl call => exact Prog.uses_on_left _ accesses
  | inr e => exact ⟨outer e used, fun _ => trivial⟩

theorem action_keeps_flag (site : Site) (page : Page) (model : AuthorizeFormModel)
    (action : PageAction) : (action.facadeCall site page model).Uses KeepsFlag := by
  cases action with
  | submit =>
    refine ⟨rfl, fun (reply : Except Exn RusAuthCallToConfirmResponse) => ⟨rfl, fun _ => ?_⟩⟩
    rcases reply with x | response
    · trivial
    · refine ⟨rfl, fun (outcome : Except Exn ExampleConfirmationFlow) => ?_⟩
      rcases outcome with x | flow
      · trivial
      · exact ⟨rfl, fun _ => ⟨rfl, fun _ => ⟨rfl, fun _ => ⟨rfl, fun _ => trivial⟩⟩⟩⟩
  | checkStatus =>
    refine ⟨rfl, fun (tracked : Option Str) => ?_⟩
    cases tracked with
    | none => trivial
    | some id =>
      refine ⟨rfl, fun (reply : Except Exn RusCheckConfirmationResponse) => ⟨rfl, fun _ => ?_⟩⟩
      rcases reply with x | response
      · trivial
      · refine ⟨rfl, fun (outcome : Except Exn (Option ExampleConfirmationFlow)) => ?_⟩
        rcases outcome with x | _ | flow
        · trivial
        · trivial
        · exact ⟨rfl, fun _ => ⟨rfl, fun _ => trivial⟩⟩

theorem execute_ordered (page : Page) {action : AppM Unit} (keeps : action.Uses KeepsFlag) :
    ((executeAsync page action).interp withAccesses).Follows
      (fun past => Ordered (some page) (phase past)) (fun _ done => phase done = .closed) [] := by
  let closes : Except Exn Unit → AppM Unit := fun outcome =>
    (setIsBusy page false).bind fun _ => Prog.ofExcept outcome
  have inner : ((attempted page action).attempt.interp withAccesses).Uses
      fun e => busySet e = none := by
    refine fine_uses (P := KeepsFlag) (Prog.uses_attempt (Prog.uses_recover ?_ fun ex => ?_))
      (fun _ => rfl) fun e keeps => (busy_set_outer e).trans keeps
    · exact Prog.uses_bind keeps fun _ => Prog.uses_bind (shown_uses _ rfl fun _ => rfl)
        fun _ => trivial
    · exact ⟨rfl, fun _ => ⟨rfl, fun _ => ⟨rfl, fun _ => trivial⟩⟩⟩
  rw [execute_eq]
  refine Prog.follows_op rfl fun _ => Prog.follows_op rfl fun _ =>
    Prog.follows_op (Or.inr rfl) fun _ => Prog.follows_op (Or.inr rfl) fun _ => ?_
  show (((attempted page action).attempt.bind closes).interp withAccesses).Follows _ _ _
  have total : ((attempted page action).attempt.interp withAccesses).Total := by
    rw [Prog.interp_attempt with_accesses_total]
    exact Prog.total_attempt _
  rw [Prog.interp_bind]
  refine Prog.follows_bind (Prog.follows_ok total
    (Prog.follows_invariant (K := fun past => phase past = .busy) inner rfl ?_)) ?_
    fun x done failed => absurd rfl (failed.2 x)
  · intro past e now keeps
    rw [now]
    exact ⟨Or.inr keeps, fun a => by rw [phase_snoc, now, Phase.after, keeps]; rfl⟩
  · rintro outcome done ⟨now, _⟩
    refine Prog.follows_op (by rw [now]; exact Or.inl rfl) fun a => ?_
    have closed := phase_snoc done (.inr (.inr (.setIsBusy page false))) a
    rw [now] at closed
    cases outcome <;> exact closed

theorem waits_outer {T : Signature} (e : (rusAuthSig.sum hostSig).Op) :
    Waits (S := S) (.inr e) ↔ Waits (S := T) (.inr e) := by
  rcases e with e | e <;> cases e <;> rfl

theorem of_publish_aside (e : AppSig.Op) (used : OfPublish e) : Aside e := by
  match e with
  | .inl (.get _) => exact ⟨rfl, id⟩
  | .inr (.inr .handlers) => exact ⟨rfl, id⟩
  | .inr (.inr (.currentTransactionId _)) => exact ⟨rfl, id⟩
  | .inr (.inr (.assign _ (.infoMessage (some _)))) => exact ⟨rfl, id⟩
  | .inr (.inr (.assign _ (.errorMessage none))) => exact ⟨rfl, id⟩
  | .inr (.inr (.setLocalError _ _)) => exact ⟨rfl, id⟩
  | .inr (.inr (.stateHasChanged _)) => exact ⟨rfl, id⟩

theorem endpoint_aside (site : Site) (request : CallbackRequest) :
    (callbackEndpoint site request).Uses Aside := by
  rw [callbackEndpoint]
  split
  · trivial
  · trivial
  · refine ⟨⟨rfl, id⟩, fun (outcome : Except Exn (Option ExampleConfirmationFlow)) => ?_⟩
    rcases outcome with x | _ | flow
    · trivial
    · trivial
    · show (Prog.interp withPages ((publishAsync (updateOf flow) .none).onRight.bind fun _ =>
        .ret ActionResult.ok)).Uses _
      rw [Prog.interp_bind]
      exact Prog.uses_bind (Prog.uses_weaken (publish_uses _ _) of_publish_aside) fun _ => trivial

theorem other_aside (site : Site) {task : AppTask} (other : task.acts = none) :
    (task.program site).Uses Aside := by
  cases task with
  | openPage page => exact ⟨⟨rfl, id⟩, fun _ => trivial⟩
  | disposePage page => exact ⟨⟨rfl, id⟩, fun _ => trivial⟩
  | edit page model => exact ⟨⟨rfl, id⟩, fun _ => trivial⟩
  | submit page => cases other
  | checkStatus page => cases other
  | refresh page =>
    obtain ⟨kind, session, number⟩ := page
    refine Prog.uses_bind ?_ fun _ => trivial
    cases kind with
    | account => exact ⟨⟨rfl, id⟩, fun _ => ⟨⟨rfl, id⟩, fun _ => render_uses _ ⟨rfl, id⟩⟩⟩
    | authorize =>
      exact ⟨⟨rfl, id⟩, fun _ => ⟨⟨rfl, id⟩, fun _ => ⟨⟨rfl, id⟩, fun _ =>
        render_uses _ ⟨rfl, id⟩⟩⟩⟩
  | callback request =>
    exact ⟨⟨rfl, id⟩, fun _ => ⟨⟨rfl, id⟩, fun _ =>
      Prog.uses_bind (endpoint_aside site request) fun _ => trivial⟩⟩
  | decide id status => exact ⟨⟨rfl, fun waits => waits⟩, fun _ => trivial⟩

/-- No task ends before its action has lowered the flag. -/
theorem task_ordered (site : Site) (task : AppTask) :
    ((task.program site).interp withAccesses).Follows (fun past => Ordered task.acts (phase past))
      (fun _ done => task.acts ≠ none → phase done = .closed) [] := by
  have action : ∀ page (action : PageAction),
      (((action.program site page).bind fun _ => .ret (none : Option ActionResult)).interp
        withAccesses).Follows (fun past => Ordered (some page) (phase past))
        (fun _ done => some page ≠ none → phase done = .closed) [] := by
    intro page action
    have calls : ∀ model, ((action.facadeCall site page model).bind fun _ => .ret ()).Uses
        KeepsFlag := fun model =>
      Prog.uses_bind (action_keeps_flag site page model action) fun _ => trivial
    rw [Prog.interp_bind]
    refine Prog.follows_bind (Q := fun _ done => phase done = .closed) ?_
      (fun _ _ closed _ => closed) fun _ _ closed _ => closed
    cases action <;> exact execute_ordered page ⟨rfl, calls⟩
  cases acts : task.acts with
  | some page =>
    cases task <;> cases acts
    · exact action _ .submit
    · exact action _ .checkStatus
  | none =>
    refine Prog.follows_weaken (Prog.follows_of_uses
      (P := fun e => busySet e = none ∧ ¬ Waits e)
      (fine_uses (other_aside site acts) (fun _ => ⟨rfl, id⟩) fun e aside => ?_)
      (fun past e aside => aside) []) fun _ _ _ action => absurd rfl action
    exact ⟨(busy_set_outer e).trans aside.1, fun waits => aside.2 ((waits_outer e).mp waits)⟩

end Tasks

section Steps
variable {rusAuth : Semantics rusAuthSig ς} {s s' : App ς} {e : FineSig.Op} {a : FineSig.Answer e}

theorem flag_kept (did : fineEffect rusAuth s e a s') (keeps : busySet e = none) (page : Page) :
    (s'.2.2.pages page).isBusy = (s.2.2.pages page).isBusy := by
  match e with
  | .inl e => rw [did.2]
  | .inr (.inl e) => rw [did.1.2]
  | .inr (.inr e) =>
    obtain ⟨renders, _, after⟩ := host_answered did
    rw [after]
    cases e with
    | setIsBusy page isBusy => cases keeps
    | edit p model => by_cases same : page = p <;> simp [hostAnswer, same]
    | setLocalError p localError => by_cases same : page = p <;> simp [hostAnswer, same]
    | _ => rfl

theorem flag_set (did : fineEffect rusAuth s e a s') {page : Page} {isBusy : Bool}
    (sets : e = .inr (.inr (.setIsBusy page isBusy))) (other : Page) :
    (s'.2.2.pages other).isBusy = if other = page then isBusy else (s.2.2.pages other).isBusy := by
  subst sets
  obtain ⟨renders, _, after⟩ := host_answered did
  rw [after]
  by_cases same : other = page <;> simp [hostAnswer, same]

theorem after_started (ph : Phase) (e : FineSig.Op) : ph.after e ≠ .unstarted := by
  cases ph with
  | unstarted => nofun
  | opening => cases raised : (busySet e).isSome <;> simp [Phase.after, raised]
  | busy => cases lowered : (busySet e).isSome <;> simp [Phase.after, lowered]
  | closed => nofun

theorem phase_unstarted {past : List (Performed FineSig)} (unstarted : phase past = .unstarted) :
    past = [] := by
  rcases List.eq_nil_or_concat past with none | ⟨xs, o, rfl⟩
  · exact none
  · rw [List.concat_eq_append, phase_snoc xs o.1 o.2] at unstarted
    exact absurd unstarted (after_started _ _)

end Steps

section Runs
variable [DecidableEq ι] {rusAuth : Semantics rusAuthSig ς} {site : Site} {tasks : ι → AppTask}
  {s : App ς} {tr : OuterTrace StoreSig ι} {q r : FinePool ς ι} {i : ι} {page : Page}

/-- An action is started from a live page that is not busy. -/
def StartsFree (tasks : ι → AppTask) (tr : OuterTrace StoreSig ι) (m : FinePool ς ι)
    (l : Label FineSig ι) : Prop :=
  ∀ page ∈ (tasks l.1).acts, own l.1 tr = [] →
    page ∈ livePages tr ∧ (m.shared.2.2.pages page).isBusy = false

instance (tasks : ι → AppTask) (tr : OuterTrace StoreSig ι) (m : FinePool ς ι)
    (l : Label FineSig ι) : Decidable (StartsFree tasks tr m l) :=
  inferInstanceAs (Decidable (∀ page ∈ (tasks l.1).acts, _))

/-- An action is started while no page with the same owner is busy. -/
def StartsIdle {Ω : Type} (owner : Page → Ω) (tasks : ι → AppTask) (tr : OuterTrace StoreSig ι)
    (m : FinePool ς ι) (l : Label FineSig ι) : Prop :=
  ∀ page other, (tasks l.1).acts = some page → own l.1 tr = [] → owner other = owner page →
    (m.shared.2.2.pages other).isBusy = false

def Running (ph : Phase) : Prop := ph = .opening ∨ ph = .busy

/-- An owner has one running action at most, and the page of one that has raised
    its flag is busy. -/
structure Guarded {Ω : Type} (owner : Page → Ω) (tasks : ι → AppTask) (tr : OuterTrace StoreSig ι)
    (q : FinePool ς ι) : Prop where
  one : ∀ i j page other, (tasks i).acts = some page → (tasks j).acts = some other →
    owner page = owner other → Running (phase (own i tr)) → Running (phase (own j tr)) → i = j
  busy : ∀ i page, (tasks i).acts = some page → phase (own i tr) = .busy →
    (q.shared.2.2.pages page).isBusy = true

theorem ordered_in_run (run : Exec (fun _ => fineEffect rusAuth) (finePool site tasks s) tr q)
    (i : ι) : (q.task i).Follows (fun past => Ordered (tasks i).acts (phase past))
      (fun _ done => (tasks i).acts ≠ none → phase done = .closed) (own i tr) :=
  exec_follows run (task_ordered site (tasks i))

theorem awaiting_busy (run : Exec (fun _ => fineEffect rusAuth) (finePool site tasks s) tr q)
    (acts : (tasks i).acts = some page) (awaits : Awaiting (q.task i)) :
    phase (own i tr) = .busy := by
  obtain ⟨e, next, rest, waits⟩ := awaiting_op awaits
  have follows := ordered_in_run run i
  rw [rest, acts] at follows
  exact ordered_waits follows.1 waits

theorem opening_not_at_rest
    (run : Exec (fun _ => fineEffect rusAuth) (finePool site tasks s) tr q)
    (acts : (tasks i).acts = some page) (opening : phase (own i tr) = .opening) :
    ¬ AtRest (own i tr) (q.task i) := by
  have follows := ordered_in_run run i
  have action : (tasks i).acts ≠ none := by simp [acts]
  have begun : own i tr ≠ [] := by
    intro empty
    rw [empty] at opening
    cases opening
  cases rest : q.task i with
  | ret a => rw [rest] at follows; exact nomatch opening.symm.trans (follows action)
  | raise x => rw [rest] at follows; exact nomatch opening.symm.trans (follows action)
  | op e next =>
    refine not_at_rest_op begun fun waits => ?_
    have busy := awaiting_busy run acts (rest ▸ waits)
    rw [opening] at busy
    cases busy

variable {Ω : Type} {owner : Page → Ω}

/-- While an action begins or goes on, no other one of its owner does. -/
theorem no_other_running (run : Exec (fun _ => fineEffect rusAuth) (finePool site tasks s) tr q)
    (guarded : Guarded owner tasks tr q)
    (together : ∀ page other, owner page = owner other → page.session = other.session)
    {e : FineSig.Op} {a : FineSig.Answer e} (ordered : Ordered (some page) (phase (own i tr)) e)
    (turns : TakesTurns (fun i => (tasks i).circuit) tr q (i, ⟨e, a⟩))
    (idle : StartsIdle owner tasks tr q (i, ⟨e, a⟩)) (acts : (tasks i).acts = some page) {j : ι}
    {other : Page} (different : j ≠ i) (acts' : (tasks j).acts = some other)
    (same : owner other = owner page) (running : Running (phase (own j tr))) : False := by
  cases now : phase (own i tr) with
  | closed =>
    rw [now] at ordered
    exact ordered
  | opening => exact different (guarded.one j i other page acts' acts same running (Or.inl now))
  | busy => exact different (guarded.one j i other page acts' acts same running (Or.inr now))
  | unstarted =>
    rcases running with opening | busy
    · rw [now] at ordered
      obtain rfl : e = _ := ordered
      have circuits : (tasks j).circuit = (tasks i).circuit := by
        rw [circuit_of_acts acts, circuit_of_acts acts', together _ _ same]
      have rest := (turns.resolve_left id) j different circuits
        (by simp [circuit_of_acts acts'])
      exact opening_not_at_rest run acts' opening rest
    · have free := idle page other acts (phase_unstarted now) same
      rw [guarded.busy j other acts' busy] at free
      cases free

/-- What runs after a step ran before it, or is the action that has stepped. -/
theorem one_step (guarded : Guarded owner tasks tr q) {o : Performed FineSig}
    (alone : ∀ j page other, (tasks i).acts = some page → (tasks j).acts = some other →
      owner other = owner page → j ≠ i → ¬ Running (phase (own j tr)))
    {j k : ι} {page other : Page} (acts : (tasks j).acts = some page)
    (acts' : (tasks k).acts = some other) (same : owner page = owner other)
    (running : Running (phase (own j (tr ++ [(i, o)]))))
    (running' : Running (phase (own k (tr ++ [(i, o)])))) : j = k := by
  by_cases mine : j = i
  · subst mine
    by_cases mine' : k = j
    · exact mine'.symm
    · rw [own_snoc_other mine'] at running'
      exact absurd running' (alone k page other acts acts' same.symm mine')
  · rw [own_snoc_other mine] at running
    by_cases mine' : k = i
    · subst mine'
      exact absurd running (alone j other page acts' acts same mine)
    · rw [own_snoc_other mine'] at running'
      exact guarded.one j k page other acts acts' same running running'

/-- Only the running action of a page sets its flag, and it lowers it at its end. -/
theorem busy_step (guarded : Guarded owner tasks tr q) {e : FineSig.Op} {a : FineSig.Answer e}
    {s' : App ς} (did : fineEffect rusAuth q.shared e a s')
    (ordered : Ordered (tasks i).acts (phase (own i tr)) e) {j : ι}
    (acts : (tasks j).acts = some page) (busy : phase (own j (tr ++ [(i, ⟨e, a⟩)])) = .busy) :
    (s'.2.2.pages page).isBusy = true := by
  cases sets : busySet e with
  | none =>
    rw [flag_kept did sets]
    refine guarded.busy j page acts ?_
    by_cases mine : j = i
    · subst mine
      rw [own_snoc_self, phase_snoc] at busy
      cases now : phase (own j tr) <;> simp [now, Phase.after, sets] at busy ⊢
    · rwa [own_snoc_other mine] at busy
  | some set =>
    obtain ⟨p, isBusy⟩ := set
    obtain ⟨acts', is, moves⟩ := ordered_set ordered sets
    have running : Running (phase (own i tr)) := moves.imp And.left And.left
    rw [flag_set did is]
    by_cases mine : j = i
    · subst mine
      obtain rfl : p = page := Option.some.inj (acts'.symm.trans acts)
      rw [if_pos rfl]
      rcases moves with ⟨_, raised⟩ | ⟨now, _⟩
      · exact raised
      · rw [own_snoc_self, phase_snoc, now, Phase.after, sets] at busy
        cases busy
    · rw [own_snoc_other mine] at busy
      have different : page ≠ p := by
        rintro rfl
        exact mine (guarded.one j i page page acts acts' rfl (Or.inr busy) running)
      rw [if_neg different]
      exact guarded.busy j page acts busy

theorem guarded_step (run : Exec (fun _ => fineEffect rusAuth) (finePool site tasks s) tr q)
    (guarded : Guarded owner tasks tr q)
    (together : ∀ page other, owner page = owner other → page.session = other.session)
    {l : Label FineSig ι} (step : Step (fun _ => fineEffect rusAuth) q l r)
    (turns : TakesTurns (fun i => (tasks i).circuit) tr q l)
    (idle : StartsIdle owner tasks tr q l) : Guarded owner tasks (tr ++ [l]) r := by
  cases step with
  | @act i e next a s' ready did =>
    have ordered : Ordered (tasks i).acts (phase (own i tr)) e :=
      exec_obeys run (.act ready did) (Prog.obeys_of_follows (task_ordered site (tasks i)))
    constructor
    case one =>
      intro j k page other acts acts' same running running'
      refine one_step guarded ?_ acts acts' same running running'
      intro j page other acts acts' same different running
      rw [acts] at ordered
      exact no_other_running run guarded together ordered turns idle acts different acts' same
        running
    case busy => exact fun j page acts busy => busy_step guarded did ordered acts busy

theorem guarded_run
    (run : Guided (fun _ => fineEffect rusAuth)
      (fun tr m l => TakesTurns (fun i => (tasks i).circuit) tr m l ∧
        StartsIdle owner tasks tr m l) (finePool site tasks s) tr q)
    (together : ∀ page other, owner page = owner other → page.session = other.session) :
    Guarded owner tasks tr q := by
  induction run with
  | nil =>
    refine ⟨fun i j page other _ _ _ running => ?_, fun i page _ busy => ?_⟩
    · rcases running with opening | busy
      · cases opening
      · cases busy
    · cases busy
  | snoc before last meets ih =>
    exact guarded_step (guided_exec before) ih together last meets.1 meets.2

/-- At most one action of a session awaits RusAuth. -/
def OneAwaits (tasks : ι → AppTask) (q : FinePool ς ι) : Prop :=
  ∀ i j page other, (tasks i).acts = some page → (tasks j).acts = some other →
    page.session = other.session → Awaiting (q.task i) → Awaiting (q.task j) → i = j

/-- Whoever awaits RusAuth is an action of a busy page, and the page has no other
    one. So it is for the whole session in the runs in which an action is started
    only while no page of the session is busy, whether it is still shown or not. -/
theorem one_action_a_page
    (run : Guided (fun _ => fineEffect rusAuth)
      (fun tr m l => TakesTurns (fun i => (tasks i).circuit) tr m l ∧ StartsFree tasks tr m l)
      (finePool site tasks s) tr q) :
    (∀ i, Awaiting (q.task i) → ∃ page, (tasks i).acts = some page ∧
      (q.shared.2.2.pages page).isBusy = true) ∧
    (∀ i j page, (tasks i).acts = some page → (tasks j).acts = some page →
      Awaiting (q.task i) → Awaiting (q.task j) → i = j) ∧
    (Guided (fun _ => fineEffect rusAuth)
        (fun tr m l => (TakesTurns (fun i => (tasks i).circuit) tr m l ∧ StartsFree tasks tr m l) ∧
          StartsIdle Page.session tasks tr m l) (finePool site tasks s) tr q →
      OneAwaits tasks q) := by
  have exec := guided_exec run
  have guarded : Guarded id tasks tr q :=
    guarded_run (guided_weaken (fun tr m l meets => ⟨meets.1, fun page other acts new same => by
      obtain rfl : other = page := same
      exact (meets.2 other acts new).2⟩) run) fun page other same => congrArg Page.session same
  refine ⟨fun i awaits => ?_, fun i j page acts acts' awaits awaits' => ?_, fun alone => ?_⟩
  · cases acts : (tasks i).acts with
    | some page => exact ⟨page, rfl, guarded.busy i page acts (awaiting_busy exec acts awaits)⟩
    | none =>
      obtain ⟨e, next, rest, waits⟩ := awaiting_op awaits
      have follows := ordered_in_run exec i
      rw [rest, acts] at follows
      exact absurd waits follows.1.2
  · exact guarded.one i j page page acts acts' rfl (Or.inr (awaiting_busy exec acts awaits))
      (Or.inr (awaiting_busy exec acts' awaits'))
  · have guarded := guarded_run (guided_weaken (fun tr m l meets => ⟨meets.1.1, meets.2⟩) alone)
      fun _ _ same => same
    exact fun i j page other acts acts' same awaits awaits' =>
      guarded.one i j page other acts acts' same (Or.inr (awaiting_busy exec acts awaits))
        (Or.inr (awaiting_busy exec acts' awaits'))

end Runs

/- The first page is left while its request is on the way; the second one is opened
   and sends another. -/
namespace LeftPage

inductive Party where
  | opening
  | filling
  | sending
  | leaving
  | reopening
  | refilling
  | resending
  deriving DecidableEq

instance : Fintype Party :=
  .ofList [.opening, .filling, .sending, .leaving, .reopening, .refilling, .resending] fun party => by
    cases party <;> decide

def page (number : Nat) : Page := ⟨.authorize, 0, number⟩

def tasks : Party → AppTask
  | .opening => .openPage (page 0)
  | .filling => .edit (page 0) ⟨lit "79001234567", 10⟩
  | .sending => .submit (page 0)
  | .leaving => .disposePage (page 0)
  | .reopening => .openPage (page 1)
  | .refilling => .edit (page 1) ⟨lit "79001234567", 10⟩
  | .resending => .submit (page 1)

def schedule : List Party :=
  [.opening, .filling] ++ List.replicate 5 .sending ++ [.leaving, .reopening, .refilling] ++
    List.replicate 5 .resending

def start : FinePool Unit Party := finePool Sample.site tasks (∅, (), .initial)

def after : OuterTrace StoreSig Party × FinePool Unit Party :=
  replay (Sample.answering Sample.cancelling) start schedule

theorem run : Guided (fun _ => fineEffect Sample.anyService)
    (fun tr m l => TakesTurns (fun i => (tasks i).circuit) tr m l ∧ StartsFree tasks tr m l)
    start after.1 after.2 :=
  replay_guided (fun _ => Sample.answering_any _) .nil schedule (by decide)

theorem lives : Lifecycle after.1 := by
  rw [show after.1 = after.1.take 7 ++ (.leaving, ⟨.inr (.inr (.removeHandler (page 0))), ()⟩) ::
    after.1.drop 8 from rfl]
  exact lifecycle_of_one (page 0) (by decide) (by decide) (by decide) (by decide)

end LeftPage

theorem two_actions_await :
    Guided (fun _ => fineEffect Sample.anyService)
      (fun tr m l => TakesTurns (fun i => (LeftPage.tasks i).circuit) tr m l ∧
        StartsFree LeftPage.tasks tr m l)
      LeftPage.start LeftPage.after.1 LeftPage.after.2 ∧
    Lifecycle LeftPage.after.1 ∧ ¬ OneAwaits LeftPage.tasks LeftPage.after.2 := by
  refine ⟨LeftPage.run, LeftPage.lives, fun one => ?_⟩
  cases one .sending .resending (LeftPage.page 0) (LeftPage.page 1) rfl rfl rfl trivial trivial

theorem left_page_stays_busy :
    (LeftPage.after.2.shared.2.2.pages (LeftPage.page 0)).isBusy = true := by
  obtain ⟨page, acts, busy⟩ := (one_action_a_page LeftPage.run).1 .sending trivial
  obtain rfl : LeftPage.page 0 = page := Option.some.inj acts
  exact busy

end RusAuthExample
