import RusAuthExample.ExamplePages

/-!
Runs of the whole application. RusAuth is a parameter: a relation that says how
it may answer and what it remembers. A store call is one step here; below, in
the fine runs, it is the steps of its program.
-/
namespace RusAuthExample
open Utf16Text OperationPrograms InterleavedRuns KeyedMemory

structure AuthorizePage where
  model : AuthorizeFormModel
  isBusy : Bool
  localError : Option Str
  deriving DecidableEq, Repr

structure Circuits where
  sessions : SessionId → ExampleAuthSession
  pages : Page → AuthorizePage
  handlers : List Page

def Circuits.initial : Circuits :=
  ⟨fun _ => .initial, fun _ => ⟨⟨[], 10⟩, false, none⟩, []⟩

/-- Removal from a delegate takes away the last equal handler. -/
def removeLast (handlers : List Page) (page : Page) : List Page :=
  (handlers.reverse.erase page).reverse

def hostAnswer (renders : Page → Except Exn Unit) :
    (e : hostSig.Op) → Circuits → hostSig.Answer e × Circuits
  | .arrive, s => ((), s)
  | .receive _, s => ((), s)
  | .currentTransactionId session, s => ((s.sessions session).currentTransactionId, s)
  | .assign session assignment, s =>
    ((), { s with
      sessions := Function.update s.sessions session (assignment.apply (s.sessions session)) })
  | .model page, s => ((s.pages page).model, s)
  | .edit page model, s =>
    ((), { s with pages := Function.update s.pages page { s.pages page with model := model } })
  | .setIsBusy page isBusy, s =>
    ((), { s with pages := Function.update s.pages page { s.pages page with isBusy := isBusy } })
  | .setLocalError page localError, s =>
    ((), { s with
      pages := Function.update s.pages page { s.pages page with localError := localError } })
  | .handlers, s => (s.handlers, s)
  | .addHandler page, s => ((), { s with handlers := s.handlers ++ [page] })
  | .removeHandler page, s => ((), { s with handlers := removeLast s.handlers page })
  | .stateHasChanged page, s => (renders page, s)

def hostEffect : Semantics hostSig Circuits := fun s e a s' =>
  ∃ renders, hostAnswer renders e s = (a, s')

abbrev App (ς : Type) := Journal × ς × Circuits

/-- A step of the host is one answer of it; only the outcome of a rendering is open. -/
theorem host_answered {S : Signature} {τ ς : Type} {J : Semantics S τ}
    {rusAuth : Semantics rusAuthSig ς} {s s' : τ × ς × Circuits} {e : hostSig.Op}
    {a : hostSig.Answer e} (did : beside J (beside rusAuth hostEffect) s (.inr (.inr e)) a s') :
    ∃ renders, a = (hostAnswer renders e s.2.2).1 ∧ s'.2.2 = (hostAnswer renders e s.2.2).2 := by
  obtain ⟨⟨⟨renders, answer⟩, _⟩, _⟩ := did
  exact ⟨renders, (congrArg Prod.fst answer).symm, (congrArg Prod.snd answer).symm⟩

def appEffect {ς : Type} (rusAuth : Semantics rusAuthSig ς) : Semantics AppSig (App ς) :=
  beside callEffect (beside rusAuth hostEffect)

abbrev AppPool (ς ι : Type) := Pool AppSig Exn (Option ActionResult) (App ς) ι

/-- What RusAuth and the host did, whatever the granularity of the store. -/
abbrev OuterTrace (S : Signature) (ι : Type) := List (Label (S.sum (rusAuthSig.sum hostSig)) ι)

abbrev AppTrace (ι : Type) := OuterTrace callSig ι

def appPool {ς ι : Type} (site : Site) (tasks : ι → AppTask) (s : App ς) : AppPool ς ι :=
  ⟨s, fun i => (tasks i).program site⟩

/-- A store call at the granularity of its dictionary accesses. A reading of the
    clock may be any date. -/
def storeEffect : Semantics StoreSig Journal := fun s e =>
  match e with
  | .inl access => fun a s' => effect s access a s'
  | .inr () => fun _ s' => s' = s

abbrev FineSig := StoreSig.sum (rusAuthSig.sum hostSig)

def withAccesses : (e : AppSig.Op) → Prog FineSig Exn (AppSig.Answer e)
  | .inl call => call.program.attempt.onLeft
  | .inr e => .op (.inr e) .ret

theorem with_accesses_total (e : AppSig.Op) : (withAccesses e).Total := by
  cases e with
  | inl call => exact Prog.total_on_left (Prog.total_attempt _)
  | inr e => exact fun _ => trivial

def fineEffect {ς : Type} (rusAuth : Semantics rusAuthSig ς) : Semantics FineSig (App ς) :=
  beside storeEffect (beside rusAuth hostEffect)

abbrev FinePool (ς ι : Type) := Pool FineSig Exn (Option ActionResult) (App ς) ι

def byAccesses {ς ι : Type} (p : AppPool ς ι) : FinePool ς ι :=
  ⟨p.shared, fun i => (p.task i).interp withAccesses⟩

def finePool {ς ι : Type} (site : Site) (tasks : ι → AppTask) (s : App ς) : FinePool ς ι :=
  byAccesses (appPool site tasks s)

section Granularity
variable {ς ι : Type} [DecidableEq ι] (rusAuth : Semantics rusAuthSig ς)

theorem method_runs_alone {A : Type} (method : StoreM A) (clock : Nat → DateTime) (p : FinePool ς ι)
    (i : ι) (next : Except Exn A → Prog FineSig Exn (Option ActionResult))
    (ready : p.task i = (method.attempt.onLeft).bind next) :
    ∃ tr, Exec (fun _ => fineEffect rusAuth) p tr
      ⟨(((method.feed clock).exec answer p.shared.1).2, p.shared.2),
        Function.update p.task i (next ((method.feed clock).exec answer p.shared.1).1)⟩ := by
  induction method generalizing clock p with
  | ret a => exact ⟨[], exec_idle ready⟩
  | raise x => exact ⟨[], exec_idle ready⟩
  | op e rest ih =>
    cases e with
    | inl e =>
      let a := (answer e p.shared.1).1
      let p' : FinePool ς ι := ⟨((answer e p.shared.1).2, p.shared.2),
        Function.update p.task i ((rest a).attempt.onLeft.bind next)⟩
      have step : Step (fun _ => fineEffect rusAuth) p (i, ⟨.inl (.inl e), a⟩) p' :=
        .act ready ⟨rfl, rfl⟩
      obtain ⟨tr, run⟩ := ih a clock p' (Function.update_self _ _ _)
      simp only [p', Function.update_idem] at run
      exact ⟨_, exec_cons step run⟩
    | inr u =>
      let p' : FinePool ς ι := ⟨p.shared,
        Function.update p.task i ((rest (clock 0)).attempt.onLeft.bind next)⟩
      have step : Step (fun _ => fineEffect rusAuth) p (i, ⟨.inl (.inr u), clock 0⟩) p' :=
        .act ready ⟨rfl, rfl⟩
      obtain ⟨tr, run⟩ := ih (clock 0) (fun n => clock (n + 1)) p' (Function.update_self _ _ _)
      simp only [p', Function.update_idem] at run
      exact ⟨_, exec_cons step run⟩

/-- Every run with store calls as single steps is a run of their accesses: what
    holds of all fine runs holds of it. -/
theorem atomic_run_is_fine {rusAuth : Semantics rusAuthSig ς} {p q : AppPool ς ι} {tr : AppTrace ι}
    (run : Exec (fun _ => appEffect rusAuth) p tr q) :
    ∃ tr', Exec (fun _ => fineEffect rusAuth) (byAccesses p) tr' (byAccesses q) := by
  induction run with
  | nil => exact ⟨[], .nil⟩
  | @snoc m q tr l before last ih =>
    obtain ⟨xs, sofar⟩ := ih
    cases last with
    | @act i e next a s' ready did =>
      have ready' : (byAccesses m).task i =
          (withAccesses e).bind fun a => (next a).interp withAccesses := by
        show (m.task i).interp withAccesses = _
        rw [ready]
        rfl
      have after : byAccesses ⟨s', Function.update m.task i (next a)⟩ =
          ⟨s', Function.update (byAccesses m).task i ((next a).interp withAccesses)⟩ := by
        refine congrArg (Pool.mk s') (funext fun j => ?_)
        by_cases mine : j = i
        · subst mine; simp
        · simp [Function.update_of_ne mine, byAccesses]
      rw [after]
      cases e with
      | inr e => exact ⟨_, sofar.snoc (.act ready' did)⟩
      | inl call =>
        obtain ⟨⟨clock, effect⟩, outer⟩ := did
        obtain ⟨ys, run⟩ := method_runs_alone rusAuth call.program clock (byAccesses m) i _ ready'
        refine ⟨xs ++ ys, exec_trans sofar ?_⟩
        have result : (call.program.feed clock).exec answer (byAccesses m).shared.1 = (a, s'.1) :=
          effect
        rw [result] at run
        rwa [show s' = (s'.1, (byAccesses m).shared.2) from Prod.ext rfl outer]

end Granularity

section Outside
variable {S : Signature} {A : Type}

/-- What a step is outside the store. -/
def outer : Performed (S.sum (rusAuthSig.sum hostSig)) → Option (Performed (rusAuthSig.sum hostSig))
  | ⟨.inl _, _⟩ => none
  | ⟨.inr e, a⟩ => some ⟨e, a⟩

/-- A rule about what happens outside the store, in view of what has happened there. -/
def OuterRule (allows : List (Performed (rusAuthSig.sum hostSig)) → (rusAuthSig.sum hostSig).Op → Prop)
    (past : List (Performed (S.sum (rusAuthSig.sum hostSig)))) : (S.sum (rusAuthSig.sum hostSig)).Op → Prop
  | .inl _ => True
  | .inr e => allows (past.filterMap outer) e

variable {allows : List (Performed (rusAuthSig.sum hostSig)) → (rusAuthSig.sum hostSig).Op → Prop}

/-- Such a rule is kept at either granularity of the store. -/
theorem outer_obeys {p : AppM A} {past : List (Performed AppSig)} {done : List (Performed FineSig)}
    (same : past.filterMap outer = done.filterMap outer) (obeys : p.Obeys (OuterRule allows) past) :
    (p.interp withAccesses).Obeys (OuterRule allows) done := by
  refine Prog.obeys_interp (R := fun past done => past.filterMap outer = done.filterMap outer)
    ?_ same obeys
  intro past done e same allowed
  cases e with
  | inr e =>
    have keeps : allows (past.filterMap outer) e := allowed
    rw [same] at keeps
    refine Prog.follows_op keeps fun a b is => ?_
    cases is
    rw [List.filterMap_append, List.filterMap_append, same]
    rfl
  | inl call =>
    have inside : (withAccesses (.inl call)).Uses fun e : FineSig.Op => ∃ access, e = .inl access :=
      Prog.uses_on_left _ fun e => ⟨e, rfl⟩
    refine Prog.follows_weaken (Prog.follows_invariant
      (K := fun done => past.filterMap outer = done.filterMap outer) inside same ?_) ?_
    · rintro done e same ⟨access, rfl⟩
      refine ⟨trivial, fun a => ?_⟩
      rw [List.filterMap_append, ← same]
      exact (List.append_nil _).symm
    · intro r done same a _
      rw [List.filterMap_append, ← same]
      exact List.append_nil _

end Outside

namespace Sample

def site : Site := ⟨⟨lit "secret", by decide⟩, fun _ => [], fun _ _ => []⟩

def page : Page := ⟨.authorize, 0, 0⟩

def store : (e : StoreSig.Op) → Journal → StoreSig.Answer e × Journal
  | .inl access, journal => answer access journal
  | .inr (), journal => ((0 : DateTime), journal)

theorem store_answers (e : StoreSig.Op) (journal : Journal) :
    storeEffect journal e (store e journal).1 (store e journal).2 := by
  rcases e with access | ⟨⟩ <;> rfl

def callback (clientPhoneNumber : Str) : CallbackRequest :=
  ⟨[lit "Bearer secret"], some ⟨some [116], clientPhoneNumber⟩⟩

/-- One transaction, confirmed whenever it is asked about. -/
def confirming : (e : rusAuthSig.Op) → Unit → rusAuthSig.Answer e × Unit
  | .callToConfirm _, s => (.ok ⟨some [116], none⟩, s)
  | .checkConfirmation _, s => (.ok ⟨.success⟩, s)
  | .decide _ _, s => ((), s)
  | .sendCallback _, s => ((), s)

def cancelling : (e : rusAuthSig.Op) → Unit → rusAuthSig.Answer e × Unit
  | .callToConfirm _, s => (.error .operationCanceled, s)
  | .checkConfirmation _, s => (.error .operationCanceled, s)
  | .decide _ _, s => ((), s)
  | .sendCallback _, s => ((), s)

def anyService : Semantics rusAuthSig Unit := fun _ _ _ _ => True

def behaves {ς : Type} (service : (e : rusAuthSig.Op) → ς → rusAuthSig.Answer e × ς) :
    Semantics rusAuthSig ς := fun s e a s' => service e s = (a, s')

abbrev answering {ς : Type} (service : (e : rusAuthSig.Op) → ς → rusAuthSig.Answer e × ς) :
    (e : FineSig.Op) → App ς → FineSig.Answer e × App ς :=
  Prog.alongside store (Prog.alongside service (hostAnswer fun _ => .ok ()))

theorem answering_any (service : (e : rusAuthSig.Op) → Unit → rusAuthSig.Answer e × Unit)
    (e : FineSig.Op) (s : App Unit) :
    fineEffect anyService s e (answering service e s).1 (answering service e s).2 :=
  beside_alongside store_answers (beside_alongside (fun _ _ => trivial) fun _ _ => ⟨_, rfl⟩) e s

theorem answering_behaves {ς : Type} (service : (e : rusAuthSig.Op) → ς → rusAuthSig.Answer e × ς)
    (e : FineSig.Op) (s : App ς) :
    fineEffect (behaves service) s e (answering service e s).1 (answering service e s).2 :=
  beside_alongside store_answers (beside_alongside (fun _ _ => rfl) fun _ _ => ⟨_, rfl⟩) e s

end Sample
end RusAuthExample
