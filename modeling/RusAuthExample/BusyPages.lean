import RusAuthExample.BusyGuard
import RusAuthExample.EventLoops

/-!
What the busy flag tells. A page is busy exactly while an action of it is under way, and
every raising of the flag pays for one request to RusAuth at most.
-/
namespace RusAuthExample
open Utf16Text OperationPrograms InterleavedRuns EventLoops

variable {S : Signature} {ς ι : Type}

section Flag
variable [DecidableEq ι] {rusAuth : Semantics rusAuthSig ς} {site : Site} {tasks : ι → AppTask}
  {s : App ς} {tr : OuterTrace StoreSig ι} {q : FinePool ς ι} {page : Page}

/-- In any run: whoever has raised the flag of a busy page has not lowered it. -/
theorem acting_of_busy (run : Exec (fun _ => fineEffect rusAuth) (finePool site tasks s) tr q)
    (initially : ∀ page, (s.2.2.pages page).isBusy = false)
    (busy : (q.shared.2.2.pages page).isBusy = true) :
    ∃ i, (tasks i).acts = some page ∧ phase (own i tr) = .busy := by
  induction run with
  | nil => exact absurd ((initially page).symm.trans busy) Bool.false_ne_true
  | @snoc m q tr l before last ih =>
    have ordered := exec_obeys before last (Prog.obeys_of_follows (task_ordered site (tasks l.1)))
    cases last with
    | @act i e next a s' ready did =>
      cases sets : busySet e with
      | none =>
        rw [flag_kept did sets] at busy
        obtain ⟨j, acts, acting⟩ := ih busy
        refine ⟨j, acts, ?_⟩
        by_cases mine : j = i
        · subst mine
          rw [own_snoc_self, phase_snoc, acting, Phase.after, sets]
          rfl
        · rw [own_snoc_other mine]
          exact acting
      | some set =>
        obtain ⟨p, isBusy⟩ := set
        obtain ⟨acts, is, moves⟩ := ordered_set ordered sets
        rw [flag_set did is] at busy
        by_cases same : page = p
        · subst same
          rw [if_pos rfl] at busy
          refine ⟨i, acts, ?_⟩
          rcases moves with ⟨opening, _⟩ | ⟨_, lowered⟩
          · rw [own_snoc_self, phase_snoc, opening, Phase.after, sets]
            rfl
          · exact absurd (lowered.symm.trans busy) Bool.false_ne_true
        · rw [if_neg same] at busy
          obtain ⟨j, acts', acting⟩ := ih busy
          have other : j ≠ i := by
            rintro rfl
            exact same (Option.some.inj (acts'.symm.trans acts))
          exact ⟨j, acts', by rw [own_snoc_other other]; exact acting⟩

/-- The condition of the runs: circuits take turns, and an action is started from a live
    page that is not busy. -/
def PressesEnabled (tasks : ι → AppTask) (tr : OuterTrace StoreSig ι) (m : FinePool ς ι)
    (l : Label FineSig ι) : Prop :=
  TakesTurns (fun i => (tasks i).circuit) tr m l ∧ StartsFree tasks tr m l

theorem guarded_pages (run : Guided (fun _ => fineEffect rusAuth) (PressesEnabled tasks)
    (finePool site tasks s) tr q) : Guarded id tasks tr q := by
  refine guarded_run (guided_weaken (fun tr m l meets => ⟨meets.1, ?_⟩) run) ?_
  · exact fun page other same => congrArg Page.session same
  · intro page other acts new same
    obtain rfl : other = page := same
    exact (meets.2 other acts new).2

/-- A page is busy exactly while an action of it is between raising and lowering its
    flag. Whenever the actions of the page rest, that is while one of them, and one only,
    awaits RusAuth: no action, however it ends, leaves its page disabled. -/
theorem busy_exactly_while_acting
    (run : Guided (fun _ => fineEffect rusAuth) (PressesEnabled tasks) (finePool site tasks s) tr q)
    (initially : ∀ page, (s.2.2.pages page).isBusy = false) (page : Page) :
    ((q.shared.2.2.pages page).isBusy = true ↔
      ∃ i, (tasks i).acts = some page ∧ phase (own i tr) = .busy) ∧
    ((∀ i, (tasks i).acts = some page → AtRest (own i tr) (q.task i)) →
      ((q.shared.2.2.pages page).isBusy = true ↔
        ∃! i, (tasks i).acts = some page ∧ Awaiting (q.task i))) := by
  have exec := guided_exec run
  have guarded := guarded_pages run
  have acting : (q.shared.2.2.pages page).isBusy = true ↔
      ∃ i, (tasks i).acts = some page ∧ phase (own i tr) = .busy := by
    constructor
    · intro busy
      exact acting_of_busy exec initially busy
    · rintro ⟨i, acts, busy⟩
      exact guarded.busy i page acts busy
  refine ⟨acting, fun resting => ?_⟩
  rw [acting]
  constructor
  · rintro ⟨i, acts, busy⟩
    refine ⟨i, ⟨acts, ?_⟩, ?_⟩
    · rcases resting i acts with empty | ended | awaits
      · rw [empty] at busy
        cases busy
      · have follows := ordered_in_run exec i
        have action : (tasks i).acts ≠ none := by simp [acts]
        cases rest : q.task i with
        | ret a => rw [rest] at follows; exact nomatch busy.symm.trans (follows action)
        | raise x => rw [rest] at follows; exact nomatch busy.symm.trans (follows action)
        | op e next => exact absurd rest (ended e next)
      · exact awaits
    · rintro j ⟨acts', awaits⟩
      exact guarded.one j i page page acts' acts rfl (Or.inr (awaiting_busy exec acts' awaits))
        (Or.inr busy)
  · rintro ⟨i, ⟨acts, awaits⟩, _⟩
    exact ⟨i, acts, awaiting_busy exec acts awaits⟩

end Flag

section Requests

def asks : (rusAuthSig.sum hostSig).Op → Bool
  | .inl (.callToConfirm _) => true
  | .inl (.checkConfirmation _) => true
  | _ => false

def setsBusy (page : Page) (isBusy : Bool) : Performed (rusAuthSig.sum hostSig) → Bool
  | ⟨.inr (.setIsBusy page' isBusy'), _⟩ => page' = page && isBusy' == isBusy
  | _ => false

/-- Every request of the task is paid for by a raising of the flag of the page. -/
abbrev PaysFor (page : Page) : List (Performed (S.sum (rusAuthSig.sum hostSig))) →
    (S.sum (rusAuthSig.sum hostSig)).Op → Prop := OuterRule (Paid asks (setsBusy page true))

structure Unspent (page : Page) (past : List (Performed AppSig)) : Prop where
  raised : 0 < (past.filterMap outer).countP (setsBusy page true)
  unasked : ((past.filterMap outer).countP fun o => asks o.1) = 0

def AsksNothing : AppSig.Op → Prop
  | .inl _ => True
  | .inr e => asks e = false

theorem asks_nothing_paid {page : Page} (past : List (Performed AppSig)) (e : AppSig.Op)
    (nothing : AsksNothing e) : PaysFor page past e := by
  cases e with
  | inl call => trivial
  | inr e =>
    intro asked
    exact absurd (nothing.symm.trans asked) Bool.false_ne_true

theorem local_asks_nothing (e : AppSig.Op) (free : Local e) : AsksNothing e := by
  match e with
  | .inl (.get _) => trivial
  | .inr (.inr _) => rfl

theorem unspent_later {page : Page} {past : List (Performed AppSig)} (unspent : Unspent page past)
    (e : hostSig.Op) (a : hostSig.Answer e) : Unspent page (past ++ [⟨.inr (.inr e), a⟩]) where
  raised := by
    rw [List.filterMap_append, List.countP_append]
    exact Nat.lt_add_right _ unspent.raised
  unasked := by
    rw [List.filterMap_append, List.countP_append, unspent.unasked]
    rfl

theorem unspent_pays {page : Page} {past : List (Performed AppSig)} (unspent : Unspent page past)
    (e : (rusAuthSig.sum hostSig).Op) : PaysFor page past (.inr e) := by
  intro _
  rw [unspent.unasked]
  exact unspent.raised

theorem facade_call_pays (site : Site) (page : Page) (model : AuthorizeFormModel)
    (action : PageAction) {past : List (Performed AppSig)} (unspent : Unspent page past) :
    (action.facadeCall site page model).Obeys (PaysFor page) past := by
  have quiet : ∀ {A : Type} {p : AppM A}, p.Uses AsksNothing → ∀ past, p.Obeys (PaysFor page) past :=
    fun uses past => Prog.obeys_of_uses uses asks_nothing_paid past
  cases action with
  | submit =>
    refine Prog.obeys_op (unspent_pays unspent _)
      fun (reply : Except Exn RusAuthCallToConfirmResponse) => ?_
    refine quiet ?_ _
    refine ⟨rfl, fun _ => ?_⟩
    cases reply with
    | error x => trivial
    | ok response =>
      refine ⟨trivial, fun (outcome : Except Exn ExampleConfirmationFlow) => ?_⟩
      cases outcome with
      | error x => trivial
      | ok flow => exact ⟨rfl, fun _ => ⟨rfl, fun _ => ⟨rfl, fun _ => ⟨rfl, fun _ => trivial⟩⟩⟩⟩
  | checkStatus =>
    refine Prog.obeys_op (unspent_pays unspent _) fun (tracked : Option Str) => ?_
    have still := unspent_later unspent (.currentTransactionId page.session) tracked
    cases tracked with
    | none => trivial
    | some id =>
      refine Prog.obeys_op (unspent_pays still _)
        fun (reply : Except Exn RusCheckConfirmationResponse) => ?_
      refine quiet ?_ _
      refine ⟨rfl, fun _ => ?_⟩
      cases reply with
      | error x => trivial
      | ok response =>
        refine ⟨trivial, fun (outcome : Except Exn (Option ExampleConfirmationFlow)) => ?_⟩
        rcases outcome with x | _ | flow
        · trivial
        · trivial
        · exact ⟨rfl, fun _ => ⟨rfl, fun _ => trivial⟩⟩

/-- An action asks RusAuth at most once, and with its flag raised. -/
theorem action_pays (site : Site) (page : Page) (action : PageAction) :
    (action.program site page).Obeys (PaysFor page) [] := by
  have quiet : ∀ {A : Type} {p : AppM A}, p.Uses Local → ∀ past, p.Obeys (PaysFor page) past :=
    fun uses past => Prog.obeys_of_uses (Prog.uses_weaken uses local_asks_nothing)
      asks_nothing_paid past
  have body : ∀ past, Unspent page past → ((formModel page).bind fun model =>
      (action.facadeCall site page model).bind fun _ => .ret ()).Obeys (PaysFor page) past := by
    intro past unspent
    refine Prog.obeys_op (unspent_pays unspent _) fun (model : AuthorizeFormModel) => ?_
    have still := unspent_later unspent (.model page) model
    exact Prog.obeys_bind (p := action.facadeCall site page model) (f := fun _ => .ret ())
      (facade_call_pays site page model action still) fun _ _ => trivial
  have raised : Unspent page [⟨.inr (.inr (.setLocalError page none)), ()⟩,
      ⟨.inr (.inr (.setIsBusy page true)), ()⟩,
      ⟨.inr (.inr (.assign page.session (.infoMessage none))), ()⟩,
      ⟨.inr (.inr (.assign page.session (.errorMessage none))), ()⟩] := by
    constructor
    · simp [outer, setsBusy]
    · rfl
  have executes : ∀ action : AppM Unit,
      (∀ past, Unspent page past → action.Obeys (PaysFor page) past) →
      (executeAsync page action).Obeys (PaysFor page) [] := by
    intro action acts
    refine Prog.obeys_op nofun fun _ => Prog.obeys_op nofun fun _ => Prog.obeys_op nofun fun _ =>
      Prog.obeys_op nofun fun _ => ?_
    refine Prog.obeys_ensure (Prog.obeys_recover (Prog.obeys_bind (acts _ raised) ?_) ?_) ?_
    · exact fun _ => quiet (Prog.uses_bind (shown_local _) fun _ => trivial)
    · exact fun _ => quiet ⟨trivial, fun _ => ⟨trivial, fun _ => ⟨trivial, fun _ => trivial⟩⟩⟩
    · exact quiet ⟨trivial, fun _ => trivial⟩
  cases action <;> exact executes _ body

def outside (P : Performed (rusAuthSig.sum hostSig) → Bool) (o : Performed FineSig) : Bool :=
  ((outer o).map P).getD false

theorem outside_sets (page : Page) (isBusy : Bool) (e : FineSig.Op) (a : FineSig.Answer e) :
    outside (setsBusy page isBusy) ⟨e, a⟩ = true ↔ busySet e = some (page, isBusy) := by
  match e with
  | .inl _ => simp [outside, outer, busySet]
  | .inr (.inl _) => simp [outside, outer, setsBusy, busySet]
  | .inr (.inr e) => cases e <;> simp [outside, outer, setsBusy, busySet]

theorem pays_counted {page : Page} (past : List (Performed FineSig)) (e : FineSig.Op)
    (pays : PaysFor page past e) :
    Paid (Sum.elim (fun _ => false) asks) (outside (setsBusy page true)) past e := by
  cases e with
  | inl access => nofun
  | inr e =>
    have counted : Paid asks (setsBusy page true) (past.filterMap outer) e := pays
    have asked : (fun o : Performed FineSig => ((outer o).map fun o => asks o.1).getD false) =
        fun o => Sum.elim (fun _ => false) asks o.1 := by
      funext o
      obtain ⟨access | e, a⟩ := o <;> rfl
    rw [Paid, List.countP_filterMap, List.countP_filterMap, asked] at counted
    exact counted

theorem task_asks_paid (site : Site) {task : AppTask} {page : Page} (acts : task.acts = some page) :
    ((task.program site).interp withAccesses).Obeys (PaysFor page) [] := by
  have none : ([] : List (Performed AppSig)).filterMap outer =
      ([] : List (Performed FineSig)).filterMap outer := rfl
  refine outer_obeys none ?_
  cases task <;> cases acts
  · exact Prog.obeys_bind (action_pays site _ .submit) fun _ _ => trivial
  · exact Prog.obeys_bind (action_pays site _ .checkStatus) fun _ _ => trivial

end Requests

section Runs
variable [DecidableEq ι] {rusAuth : Semantics rusAuthSig ς} {site : Site} {tasks : ι → AppTask}
  {s : App ς} {tr : OuterTrace StoreSig ι} {q : FinePool ς ι}

def asksFor (tasks : ι → AppTask) (page : Page) (l : Label FineSig ι) : Bool :=
  decide ((tasks l.1).acts = some page) && Sum.elim (fun _ => false) asks l.2.1

theorem asked_le_raised (run : Exec (fun _ => fineEffect rusAuth) (finePool site tasks s) tr q)
    (page : Page) :
    tr.countP (asksFor tasks page) ≤ tr.countP fun l => outside (setsBusy page true) l.2 := by
  refine count_le_of_own (P := fun i o => asksFor tasks page (i, o))
    (Q := fun _ o => outside (setsBusy page true) o) fun i => ?_
  by_cases acts : (tasks i).acts = some page
  · have paid := Prog.obeys_weaken (task_asks_paid site acts) pays_counted
    have counted := own_le_of_paid paid run
    simpa [asksFor, acts] using counted
  · simp [asksFor, acts]

theorem raised_then_lowered
    (run : Guided (fun _ => fineEffect rusAuth) (PressesEnabled tasks) (finePool site tasks s) tr q)
    (initially : ∀ page, (s.2.2.pages page).isBusy = false) (page : Page) :
    (tr.countP fun l => outside (setsBusy page true) l.2) =
      (tr.countP fun l => outside (setsBusy page false) l.2) +
        if (q.shared.2.2.pages page).isBusy = true then 1 else 0 := by
  induction run with
  | nil => simp [finePool, byAccesses, appPool, initially]
  | @snoc m q tr l before last meets ih =>
    have exec := guided_exec before
    have guarded := guarded_pages before
    have ordered := exec_obeys exec last (Prog.obeys_of_follows (task_ordered site (tasks l.1)))
    cases last with
    | @act i e next a s' ready did =>
      rw [List.countP_append, List.countP_append, List.countP_singleton, List.countP_singleton, ih]
      simp only [outside_sets]
      cases sets : busySet e with
      | none => simp [flag_kept did sets]
      | some set =>
        obtain ⟨p, isBusy⟩ := set
        obtain ⟨acts, is, moves⟩ := ordered_set ordered sets
        rw [flag_set did is]
        by_cases same : page = p
        · subst same
          rcases moves with ⟨opening, rfl⟩ | ⟨busy, rfl⟩
          · -- the flag was down: who had raised it would be running beside this action
            have down : (m.shared.2.2.pages page).isBusy = false := by
              by_contra up
              obtain ⟨j, acts', busy⟩ :=
                acting_of_busy exec initially (Bool.eq_true_of_not_eq_false up)
              obtain rfl := guarded.one j i page page acts' acts rfl (Or.inr busy) (Or.inl opening)
              rw [opening] at busy
              cases busy
            simp [down]
          · have up := guarded.busy i page acts busy
            simp [up]
        · have other : ∀ isBusy', some (p, isBusy) ≠ some (page, isBusy') := by
            intro isBusy' is
            exact same (congrArg Prod.fst (Option.some.inj is)).symm
          simp [same, other]

/-- RusAuth is asked once for each action of a page at most, and a page begins its next
    action when the last one has ended: its requests are at most as many as the actions
    that have ended, and one more while the page is busy. -/
theorem one_request_an_action
    (run : Guided (fun _ => fineEffect rusAuth) (PressesEnabled tasks) (finePool site tasks s) tr q)
    (initially : ∀ page, (s.2.2.pages page).isBusy = false) (page : Page) :
    tr.countP (asksFor tasks page) ≤ (tr.countP fun l => outside (setsBusy page true) l.2) ∧
    (tr.countP fun l => outside (setsBusy page true) l.2) =
      (tr.countP fun l => outside (setsBusy page false) l.2) +
        if (q.shared.2.2.pages page).isBusy = true then 1 else 0 :=
  ⟨asked_le_raised (guided_exec run) page, raised_then_lowered run initially page⟩

end Runs

/- The first request of the page fails and is reported; the second one is on its way. -/
namespace AskedAgain

inductive Party where
  | opening
  | first
  | second
  deriving DecidableEq

instance : Fintype Party := .ofList [.opening, .first, .second] fun party => by
  cases party <;> decide

def page : Page := ⟨.authorize, 0, 0⟩

def tasks : Party → AppTask
  | .opening => .openPage page
  | .first => .submit page
  | .second => .submit page

def schedule : List Party :=
  [.opening] ++ List.replicate 11 .first ++ List.replicate 6 .second

def start : FinePool Unit Party := finePool Sample.site tasks (∅, (), .initial)

def after : OuterTrace StoreSig Party × FinePool Unit Party :=
  replay (Sample.answering Sample.cancelling) start schedule

instance (tr : OuterTrace StoreSig Party) (m : FinePool Unit Party) (l : Label FineSig Party) :
    Decidable (PressesEnabled tasks tr m l) := inferInstanceAs (Decidable (_ ∧ _))

theorem run : Guided (fun _ => fineEffect (Sample.behaves Sample.cancelling)) (PressesEnabled tasks)
    start after.1 after.2 :=
  replay_guided (fun _ => Sample.answering_behaves _) .nil schedule (by decide)

end AskedAgain

theorem asked_again_busy : ∃! i, (AskedAgain.tasks i).acts = some AskedAgain.page ∧
    Awaiting (AskedAgain.after.2.task i) := by
  have acting := busy_exactly_while_acting AskedAgain.run (fun _ => rfl) AskedAgain.page
  exact (acting.2 (by decide)).mp (acting.1.mpr ⟨.second, rfl, by decide⟩)

theorem asked_again_once_each :
    2 ≤ AskedAgain.after.1.countP fun l => outside (setsBusy AskedAgain.page true) l.2 := by
  have asked := (one_request_an_action AskedAgain.run (fun _ => rfl) AskedAgain.page).1
  exact Nat.le_trans (by decide) asked

end RusAuthExample
