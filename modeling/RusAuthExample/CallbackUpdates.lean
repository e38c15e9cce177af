import RusAuthExample.ConfirmationEvidence
import RusAuthExample.PageActions
import RusAuthExample.PageLifecycle

/-!
What a published update changes. The account page takes every update, the
authorize page the updates of its own transaction, which it looks up in the
journal first: that the two agree rests on the journal keeping every flow under
the flow's own id.
-/
namespace RusAuthExample
open Utf16Text OperationPrograms InterleavedRuns KeyedMemory

variable {ς ι : Type}

/-- PublishAsync with the pages as its handlers. -/
def publishUpdate (update : ExampleConfirmationUpdate) (cancellationToken : CancellationToken) :
    AppM Unit := ((publishAsync update cancellationToken).onRight (S := callSig)).interp withPages

def deliverUpdate (update : ExampleConfirmationUpdate) (cancellationToken : CancellationToken)
    (handlers : List Page) : AppM Unit :=
  ((deliver update cancellationToken handlers).onRight (S := callSig)).interp withPages

def FlowsNamed (journal : Journal) : Prop :=
  ∀ id flow, journal.lookup id = some flow → flow.transactionId = id

/-- The page takes the update: it is an account page, or the transaction is its
    session's current one. -/
def Takes (update : ExampleConfirmationUpdate) (page : Page) (session : ExampleAuthSession) : Prop :=
  page.kind = .account ∨ session.currentTransactionId = some update.transactionId

instance (update : ExampleConfirmationUpdate) (page : Page) (session : ExampleAuthSession) :
    Decidable (Takes update page session) := inferInstanceAs (Decidable (_ ∨ _))

def pageMessage (page : Page) (update : ExampleConfirmationUpdate) : Str :=
  match page.kind with
  | .account => callbackMessage update.transactionId
  | .authorize => updatedMessage

/-- The circuits after the handler of one page. -/
def heard (update : ExampleConfirmationUpdate) (c : Circuits) (page : Page) : Circuits :=
  if Takes update page (c.sessions page.session) then
    let c' := c.onSession page.session fun s => s.setInfo (pageMessage page update)
    match page.kind with
    | .account => c'
    | .authorize => c'.onPage page fun p => { p with localError := none }
  else c

section Sessions
variable {update : ExampleConfirmationUpdate} {c : Circuits} {page : Page}

theorem heard_taken (takes : Takes update page (c.sessions page.session)) :
    (heard update c page).sessions =
      (c.onSession page.session fun s => s.setInfo (pageMessage page update)).sessions := by
  rw [heard, if_pos takes]
  cases page.kind <;> rfl

theorem heard_ignored (ignores : ¬ Takes update page (c.sessions page.session)) :
    heard update c page = c := if_neg ignores

theorem heard_elsewhere {session : SessionId} (other : session ≠ page.session) :
    (heard update c page).sessions session = c.sessions session := by
  by_cases takes : Takes update page (c.sessions page.session)
  · rw [heard_taken takes]
    exact Function.update_of_ne other _ _
  · rw [heard_ignored takes]

theorem heard_unlisted {session : SessionId} {pages : List Page}
    (unlisted : ∀ page ∈ pages, page.session ≠ session) :
    (pages.foldl (heard update) c).sessions session = c.sessions session := by
  induction pages generalizing c with
  | nil => rfl
  | cons page pages ih =>
    rw [List.foldl_cons, ih fun p member => unlisted p (List.mem_cons_of_mem _ member)]
    exact heard_elsewhere (unlisted page List.mem_cons_self).symm

/-- With one page a session, each session is left by its own page's handler. -/
theorem heard_listed {pages : List Page} (distinct : (pages.map Page.session).Nodup)
    (member : page ∈ pages) :
    (pages.foldl (heard update) c).sessions page.session =
      if Takes update page (c.sessions page.session) then
        (c.sessions page.session).setInfo (pageMessage page update)
      else c.sessions page.session := by
  induction pages generalizing c with
  | nil => cases member
  | cons first pages ih =>
    rw [List.map_cons, List.nodup_cons] at distinct
    rw [List.foldl_cons]
    rcases List.mem_cons.mp member with rfl | later
    · rw [heard_unlisted fun p listed same =>
        distinct.1 (List.mem_map.mpr ⟨p, listed, same⟩)]
      by_cases takes : Takes update page (c.sessions page.session)
      · rw [heard_taken takes, if_pos takes, Circuits.on_session_sessions]
      · rw [heard_ignored takes, if_neg takes]
    · have other : page.session ≠ first.session := fun same =>
        distinct.1 (same ▸ List.mem_map_of_mem later)
      rw [ih distinct.2 later, heard_elsewhere other]

end Sessions

section Delivery
variable (clock : Nat → DateTime) (client : (e : rusAuthSig.Op) → ς → rusAuthSig.Answer e × ς)
  (renders : Page → Except Exn Unit) {journal : Journal} (service : ς) (c : Circuits)
  (update : ExampleConfirmationUpdate)

theorem shown_of_named (named : FlowsNamed journal) (session : ExampleAuthSession) :
    shownId journal session = session.currentTransactionId := by
  rw [shownId, flowOf]
  cases session.currentTransactionId with
  | none => rfl
  | some id =>
    dsimp only
    by_cases blank : isBlank id = true
    · rw [if_pos blank]
    · rw [if_neg blank]
      cases stored : journal.lookup id with
      | none => rfl
      | some flow => exact congrArg some (named id flow stored)

theorem account_handler_alone {page : Page} (account : page.kind = .account)
    (ok : renders page = .ok ()) :
    (onConfirmationUpdatedAsync page update).exec (alone clock client renders)
      (journal, service, c) = (.ok (), (journal, service, heard update c page)) := by
  have takes : Takes update page (c.sessions page.session) := Or.inl account
  obtain ⟨kind, session, number⟩ := page
  cases account
  let page : Page := ⟨.account, session, number⟩
  have program : onConfirmationUpdatedAsync page update =
      (setInfo session (callbackMessage update.transactionId)).bind
        fun _ => stateHasChanged page := rfl
  rw [program, Prog.exec_bind, set_info_alone, heard, if_pos takes]
  have step : ∀ s : App ς, (stateHasChanged page).exec (alone clock client renders) s =
      (Prog.ofExcept (renders page)).exec (alone clock client renders) s := fun _ => rfl
  dsimp only
  rw [step, ok]
  rfl

/-- The handler of an Authorize page compares the update with what the page shows,
    which is what its session tracks. -/
theorem authorize_handler_alone (named : FlowsNamed journal) {page : Page}
    (authorize : page.kind = .authorize) (ok : renders page = .ok ()) :
    (onConfirmationUpdatedAsync page update).exec (alone clock client renders)
      (journal, service, c) = (.ok (), (journal, service, heard update c page)) := by
  obtain ⟨kind, session, number⟩ := page
  cases authorize
  let page : Page := ⟨.authorize, session, number⟩
  let rest : Option Str → AppM Unit := fun currentTransactionId =>
    if some update.transactionId ≠ currentTransactionId then .ret () else
      (setInfo session updatedMessage).bind fun _ =>
        (setLocalError page none).bind fun _ => stateHasChanged page
  have program : onConfirmationUpdatedAsync page update =
      (shownTransactionId session).bind rest := rfl
  rw [program, Prog.exec_bind, shown_alone, shown_of_named named]
  by_cases current : (c.sessions session).currentTransactionId = some update.transactionId
  · have step : (rest (c.sessions session).currentTransactionId).exec
        (alone clock client renders) (journal, service, c) =
        (Prog.ofExcept (renders page)).exec (alone clock client renders)
          (journal, service, (c.onSession session fun s => s.setInfo updatedMessage).onPage page
            fun p => { p with localError := none }) := by
      simp only [rest, current, ne_eq, not_true_eq_false, ↓reduceIte]
      rw [Prog.exec_bind, set_info_alone]
      rfl
    have takes : Takes update page (c.sessions page.session) := Or.inr current
    dsimp only
    rw [step, ok, heard, if_pos takes]
    rfl
  · have ignores : ¬ Takes update page (c.sessions session) := by
      intro takes
      rcases takes with account | same
      · cases account
      · exact current same
    rw [heard_ignored ignores]
    simp only [rest, ne_eq, Ne.symm current, not_false_eq_true, ↓reduceIte]
    rfl

theorem handler_alone (named : FlowsNamed journal) {page : Page} (ok : renders page = .ok ()) :
    (invokePage page update).exec (alone clock client renders) (journal, service, c) =
      (.ok .completes, (journal, service, heard update c page)) := by
  have handled : (onConfirmationUpdatedAsync page update).exec (alone clock client renders)
      (journal, service, c) = (.ok (), (journal, service, heard update c page)) := by
    cases kind : page.kind with
    | account => exact account_handler_alone clock client renders service c update kind ok
    | authorize => exact authorize_handler_alone clock client renders service c update named kind ok
  rw [invokePage, Prog.exec_bind, Prog.exec_attempt, handled]
  rfl

theorem deliver_alone (cancellationToken : CancellationToken) (named : FlowsNamed journal)
    {handlers : List Page} (ok : ∀ page ∈ handlers, renders page = .ok ()) :
    (deliverUpdate update cancellationToken handlers).exec (alone clock client renders)
        (journal, service, c) =
      (.ok (), (journal, service, handlers.foldl (heard update) c)) := by
  induction handlers generalizing c with
  | nil => rfl
  | cons page rest ih =>
    have turn : deliverUpdate update cancellationToken (page :: rest) =
        (invokePage page update).bind fun outcome =>
          (((Prog.ofExcept outcome.result).bind fun _ =>
            deliver update cancellationToken rest).onRight (S := callSig)).interp withPages := by
      cases cancellationToken <;> rfl
    rw [turn, Prog.exec_bind, handler_alone clock client renders service c update named
      (ok page List.mem_cons_self)]
    exact ih (heard update c page) fun p member => ok p (List.mem_cons_of_mem _ member)

theorem publish_alone (cancellationToken : CancellationToken) (named : FlowsNamed journal)
    (ok : ∀ page ∈ c.handlers, renders page = .ok ()) :
    (publishUpdate update cancellationToken).exec (alone clock client renders)
        (journal, service, c) =
      (.ok (), (journal, service, c.handlers.foldl (heard update) c)) := by
  have reads : (publishUpdate update cancellationToken).exec (alone clock client renders)
      (journal, service, c) = (deliverUpdate update cancellationToken c.handlers).exec
        (alone clock client renders) (journal, service, c) := by
    obtain ⟨sessions, pages, handlers⟩ := c
    cases handlers <;> rfl
  rw [reads, deliver_alone clock client renders service c update cancellationToken named ok]

end Delivery

namespace TwoPages

inductive Party where
  | account
  | authorize
  deriving DecidableEq

def account : Page := ⟨.account, 1, 0⟩

def tasks : Party → AppTask
  | .account => .openPage account
  | .authorize => .openPage Sample.page

def after : OuterTrace StoreSig Party × FinePool Unit Party :=
  replay (Sample.answering Sample.confirming) (finePool Sample.site tasks (∅, (), .initial))
    [.account, .authorize]

theorem run : Exec (fun _ => fineEffect Sample.anyService)
    (finePool Sample.site tasks (∅, (), .initial)) after.1 after.2 :=
  replay_exec (fun _ => Sample.answering_any _) _ _

theorem opened_pages : opened after.1 = [account, Sample.page] := by decide

theorem lives : Lifecycle after.1 where
  once := by rw [opened_pages]; decide
  after xs l ys page split disposes := by
    have none : page ∈ disposed after.1 :=
      List.mem_filterMap.mpr ⟨l, by simp [split], disposes⟩
    rw [show disposed after.1 = [] by decide] at none
    cases none

theorem live : livePages after.1 = [account, Sample.page] := by decide

end TwoPages

end RusAuthExample
