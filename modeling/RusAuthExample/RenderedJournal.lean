import RusAuthExample.RenderedPages

/-!
The account page while callbacks and other circuits run. It asks for the flows twice,
once for their number and once for the rows.
-/
namespace RusAuthExample
open Utf16Text OperationPrograms InterleavedRuns KeyedMemory ObservedRuns

variable {ς ι : Type}

section Account
variable [DecidableEq ι] {rusAuth : Semantics rusAuthSig ς} {site : Site}
  {tasks : ι → FacadeTask} {service : ς} {circuits : Circuits} {past : OuterTrace StoreSig ι}
  {p : FacadePool ς ι} {session : SessionId}

/-- The rows are the journal as it was at one moment of the rendering, each of its
    transactions once, the latest first. -/
structure RowsShow (rusAuth : Semantics rusAuthSig ς) (format : DateTime → Str)
    (p : FacadePool ς ι) (tr : OuterTrace StoreSig ι) (rows : List AccountRow) : Prop where
  moment : ∃ xs m, ∃ flows : List ExampleConfirmationFlow, xs <+: tr ∧
    Exec (fun _ => fineEffect rusAuth) p xs m ∧ rows = flows.map (accountRow format) ∧
    (∀ flow, flow ∈ flows ↔ ∃ id, m.shared.1.lookup id = some flow) ∧
    flows.Pairwise fun x y => y.createdOn ≤ x.createdOn
  once : (rows.map (·.transactionId)).Nodup
  known : ∀ id ∈ p.shared.1, id ∈ rows.map (·.transactionId)

/-- What the account page shows. It calls the journal empty only if it was when the
    rendering began, and never beside a current transaction. -/
structure AccountShows (rusAuth : Semantics rusAuthSig ς) (format : DateTime → Str) (site : Site)
    (p : FacadePool ς ι) (page : Page) (tr : OuterTrace StoreSig ι) (view : AccountView) : Prop where
  current : view.currentTransaction =
    orDefaultText (p.shared.2.2.sessions page.session).currentTransactionId notStartedText
  callbackToken : view.callbackToken = shownToken site.callbackOptions
  empty : view.rows = none → p.shared.1 = ∅
  rows : ∀ rows, view.rows = some rows → RowsShow rusAuth format p tr rows
  active : ∀ id, activeId p.shared page.session = some id → view.currentTransaction = id ∧
    ∃ rows, view.rows = some rows ∧ (rows.map (·.transactionId)).count id = 1

theorem flows_render (t : App ς × OuterTrace StoreSig ι) :
    Renders rusAuth tasks p session (fun flows t' => ∃ values m, flows = getAll values ∧
        Snapshot m.1.1 values ∧ Meanwhile rusAuth tasks p session m ∧ m.2 <+: t'.2)
      getTrackedFlows t :=
  returns_look fun t₁ values _ inv₁ seen => returns_ret fun _ later _ =>
    ⟨values, t₁, rfl, seen, inv₁, later.log⟩

theorem key_listed {journal : Journal} {values : List ExampleConfirmationFlow}
    (taken : Snapshot journal values)
    (named : ∀ id flow, journal.lookup id = some flow → flow.transactionId = id) {id : Str} :
    id ∈ (getAll values).map (·.transactionId) ↔ id ∈ journal := by
  rw [List.mem_map, ← AList.lookup_isSome, Option.isSome_iff_exists]
  constructor
  · rintro ⟨flow, member, rfl⟩
    obtain ⟨id, stored⟩ := (mem_get_all taken flow).mp member
    exact ⟨flow, by rwa [named id flow stored]⟩
  · rintro ⟨flow, stored⟩
    exact ⟨flow, (mem_get_all taken flow).mpr ⟨id, stored⟩, named id flow stored⟩

theorem listed_once {journal : Journal} {values : List ExampleConfirmationFlow}
    (taken : Snapshot journal values)
    (named : ∀ id flow, journal.lookup id = some flow → flow.transactionId = id) :
    ((getAll values).map (·.transactionId)).Nodup := by
  refine (get_all_nodup taken named).map_on fun x left y right same => ?_
  obtain ⟨id, stored⟩ := (mem_get_all taken x).mp left
  obtain ⟨id', stored'⟩ := (mem_get_all taken y).mp right
  rw [named id x stored, named id' y stored'] at same
  subst same
  exact Option.some.inj (stored.symm.trans stored')

theorem row_ids (format : DateTime → Str) (flows : List ExampleConfirmationFlow) :
    (flows.map (accountRow format)).map (·.transactionId) = flows.map (·.transactionId) := by
  rw [List.map_map]
  rfl

theorem rows_render (format : DateTime → Str)
    (named : ∀ xs m, Exec (fun _ => fineEffect rusAuth) p xs m → ∀ id flow,
      m.shared.1.lookup id = some flow → flow.transactionId = id)
    {t : App ς × OuterTrace StoreSig ι} (inv : Meanwhile rusAuth tasks p session t) :
    Renders rusAuth tasks p session (fun rows t' => (rows = none → p.shared.1 = ∅) ∧
        ∀ shown, rows = some shown → RowsShow rusAuth format p t'.2 shown)
      (renderRows format) t := by
  have read : ∀ {m : App ς × OuterTrace StoreSig ι}, Meanwhile rusAuth tasks p session m →
      ∀ id flow, m.1.1.lookup id = some flow → flow.transactionId = id := by
    intro m inv id flow stored
    obtain ⟨q, exec, reached⟩ := inv.reached
    exact named m.2 q exec id flow (by rwa [reached])
  refine returns_bind inv (flows_render t) fun counted t₁ _ inv₁ listed => ?_
  obtain ⟨values, m, is, taken, then', _⟩ := listed
  show Renders rusAuth tasks p session _ (if counted.length = 0 then Prog.ret none
    else getTrackedFlows.bind fun flows => .ret (some (flows.map (accountRow format)))) t₁
  split
  · rename_i empty
    refine returns_ret fun t₂ _ _ =>
      ⟨fun _ => ?_, fun shown same => (Option.some_ne_none _ same.symm).elim⟩
    refine AList.ext (List.eq_nil_iff_forall_not_mem.mpr ?_)
    rintro ⟨id, flow⟩ member
    have key : id ∈ m.1.1 :=
      then'.calm.keys id (AList.mem_keys.mpr (List.mem_map.mpr ⟨_, member, rfl⟩))
    have listed := (key_listed taken (read then')).mpr key
    rw [← is, List.length_eq_zero_iff.mp empty] at listed
    exact absurd listed List.not_mem_nil
  · refine returns_bind inv₁ (flows_render t₁) fun flows t₂ _ _ listed => ?_
    obtain ⟨values, m, is, taken, then', on⟩ := listed
    refine returns_ret fun t₃ later _ =>
      ⟨fun some_is_none => (Option.some_ne_none _ some_is_none).elim, fun shown same => ?_⟩
    cases same
    subst is
    obtain ⟨q, exec, reached⟩ := then'.reached
    constructor
    case moment =>
      refine ⟨m.2, q, getAll values, on.trans later.log, exec, rfl, fun flow => ?_,
        get_all_sorted values⟩
      rw [reached]
      exact mem_get_all taken flow
    case once =>
      rw [row_ids]
      exact listed_once taken (read then')
    case known =>
      intro id key
      rw [row_ids]
      exact (key_listed taken (read then')).mpr (then'.calm.keys id key)

theorem account_renders (format : DateTime → Str) (site : Site) (page : Page)
    {circuit : ι → Option SessionId} (keys : KeepsKeys circuit p.shared past)
    (named : ∀ xs m, Exec (fun _ => fineEffect rusAuth) p xs m → ∀ id flow,
      m.shared.1.lookup id = some flow → flow.transactionId = id) :
    Renders rusAuth tasks p page.session
      (fun view t' => AccountShows rusAuth format site p page t'.2 view)
      (renderAccount format site page) (p.shared, []) := by
  refine returns_bind meanwhile_start (current_id_renders _)
    fun tracked t₁ _ inv₁ (current : tracked = _) => ?_
  refine returns_bind inv₁ (rows_render format named inv₁) fun rows t₂ _ _ ⟨empty, shows⟩ => ?_
  refine returns_ret fun t₃ later _ => ?_
  have rowsLater : ∀ shown, rows = some shown → RowsShow rusAuth format p t₃.2 shown := by
    intro shown is
    obtain ⟨⟨xs, m, flows, early, moment⟩, once, known⟩ := shows shown is
    exact ⟨⟨xs, m, flows, early.trans later.log, moment⟩, once, known⟩
  refine ⟨by rw [current], rfl, empty, rowsLater, fun id active => ?_⟩
  obtain ⟨tracks, filled⟩ := Option.filter_eq_some_iff.mp active
  have key : id ∈ p.shared.1 := keys.current page.session id tracks
  have blank : isBlank id = false := by simpa using filled
  refine ⟨by simp [current, tracks, orDefaultText, isNullOrWhiteSpace, blank], ?_⟩
  cases listed : rows with
  | none =>
    rw [empty listed] at key
    exact absurd key (AList.notMem_empty id)
  | some shown =>
    have holds := rowsLater shown listed
    exact ⟨shown, rfl, List.count_eq_one_of_mem holds.once (holds.known id key)⟩

/-- While the account page is rendered, whatever else happens: the table is the journal
    of one moment, each transaction once and the latest first, with all that was there
    when the rendering began; and a current transaction never stands beside an empty
    journal. -/
theorem account_page_shows_one_moment
    (run : Exec (fun _ => fineEffect rusAuth) (facadePool site tasks (∅, service, circuits)) past p)
    (untracked : ∀ session, (circuits.sessions session).currentTransactionId = none)
    {format : DateTime → Str} {page : Page} {rest : ViewM AccountView}
    {tr : OuterTrace StoreSig ι} {q : FacadePool ς ι}
    (observed : Observed (fun _ => fineEffect rusAuth) (looking rusAuth)
      (Elsewhere tasks page.session) p (renderAccount format site page) tr q rest) :
    (∀ x, rest ≠ .raise x) ∧
      ∀ view, rest = .ret view → AccountShows rusAuth format site p page tr view := by
  refine rendered run observed (account_renders format site page (keys_run run untracked) ?_)
  intro xs m exec
  exact (keys_run (exec_trans run exec) untracked).named

end Account

namespace CallbackWhileRendering

def listing : ViewM AccountView := renderAccount format Sample.site Sample.page

end CallbackWhileRendering

theorem listing_across_callback :
    ∃ view, (CallbackWhileRendering.after CallbackWhileRendering.listing 2).2.2 = .ret view ∧
      AccountShows SecondStart.counting CallbackWhileRendering.format Sample.site
        CallbackWhileRendering.sent.2 Sample.page
        (CallbackWhileRendering.after CallbackWhileRendering.listing 2).1 view := by
  have shows := account_page_shows_one_moment CallbackWhileRendering.run (fun _ => rfl)
    (show Observed _ _ (Elsewhere EditedForm.tasks Sample.page.session) _
      (renderAccount CallbackWhileRendering.format Sample.site Sample.page) _ _ _
      from CallbackWhileRendering.observed (account_reads _ _ _) 2)
  obtain ⟨view, ended⟩ := Option.isSome_iff_exists.mp
    (show (Sample.returned
      (CallbackWhileRendering.after CallbackWhileRendering.listing 2).2.2).isSome = true by
        decide +kernel)
  exact ⟨view, Sample.returned_ret ended, shows.2 view (Sample.returned_ret ended)⟩

end RusAuthExample
