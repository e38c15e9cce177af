import RusAuthExample.ConfirmationStore

/-!
A rule for the store's methods among any others. Suppose something is to hold of
every stored record, something more of every record at the moment it is written,
and neither is ever lost again. Then a copy that was read stays good while it is
out, and all that is left to see is that each method turns a good copy into a
record it may write.
-/
namespace RusAuthExample
open Utf16Text OperationPrograms InterleavedRuns RelyGuarantee KeyedMemory

variable {σ : Type}

/-- The dictionary and the clock within a larger state, a property of stored
    records and one of records about to be written. The passing of time takes
    neither away. -/
structure StoreRules (H : Semantics StoreSig σ) (journal : σ → Journal) (R : σ → σ → Prop)
    (Good MayWrite : σ → Str → ExampleConfirmationFlow → Prop) : Prop where
  lasting : ∀ s s' id flow, R s s' → Good s id flow → Good s' id flow
  mayLast : ∀ s s' id flow, R s s' → MayWrite s id flow → MayWrite s' id flow
  good : ∀ s id flow, MayWrite s id flow → Good s id flow
  get : ∀ s id a s', H s (.inl (.get id)) a s' →
    R s s' ∧ journal s' = journal s ∧ a = (journal s).lookup id
  put : ∀ s id flow a s', H s (.inl (.put id flow)) a s' →
    R s s' ∧ journal s' = (journal s).insert id flow
  clock : ∀ s (t : DateTime) s', H s (.inr ()) t s' → R s s' ∧ journal s' = journal s

def AllGood (journal : σ → Journal) (Good : σ → Str → ExampleConfirmationFlow → Prop)
    (s : σ) : Prop := ∀ id flow, (journal s).lookup id = some flow → Good s id flow

def Reads (H : Semantics StoreSig σ) (R : σ → σ → Prop) (s : σ) (t : DateTime) (s' : σ) : Prop :=
  ∃ m, R s m ∧ H m (.inr ()) t s'

/-- What the call writes it may write, its dates being read on the way. -/
def WritesAllowed (H : Semantics StoreSig σ) (R : σ → σ → Prop)
    (Good MayWrite : σ → Str → ExampleConfirmationFlow → Prop) (s : σ) : StoreCall → Prop
  | .start response request => ∀ id created s', response.transactionId = some id →
    Reads H R s created s' → MayWrite s' id (newFlow id response request created)
  | .get _ => True
  | .markCallbackReceived request => ∀ id flow c t s₁ s₂ s₃, request.transactionId = some id →
    R s s₁ → Good s₁ id flow → Reads H R s₁ c s₂ → Reads H R s₂ t s₃ →
    MayWrite s₃ id (callbackUpdate flow c t)
  | .markManualStatus id status => ∀ flow s₁, R s s₁ → Good s₁ id flow →
    (status = .unhandled → ∀ t s₂, Reads H R s₁ t s₂ →
      MayWrite s₂ id (manualUpdate flow status flow.completedOn t)) ∧
    (status ≠ .unhandled → ∀ c t s₂ s₃, Reads H R s₁ c s₂ → Reads H R s₂ t s₃ →
      MayWrite s₃ id (manualUpdate flow status (some c) t))

section Rules
variable {H : Semantics StoreSig σ} {journal : σ → Journal} {R : σ → σ → Prop}
  {Good MayWrite : σ → Str → ExampleConfirmationFlow → Prop} {A : Type}

abbrev KeepsGood (H : Semantics StoreSig σ) (journal : σ → Journal) (R : σ → σ → Prop)
    (Good MayWrite : σ → Str → ExampleConfirmationFlow → Prop) (p : StoreM A) (s : σ) : Prop :=
  Safe H (AllGood journal Good) R
    (fun s e _ _ => ∀ id flow, e = .inl (.put id flow) → MayWrite s id flow) (fun _ _ => True) p s

variable (rules : StoreRules H journal R Good MayWrite)
include rules

theorem all_good_same {s s' : σ} (good : AllGood journal Good s) (kept : R s s')
    (same : journal s' = journal s) : AllGood journal Good s' := by
  intro id flow stored
  rw [same] at stored
  exact rules.lasting s s' id flow kept (good id flow stored)

theorem read_keeps {s : σ} {id : Str} {next : Option ExampleConfirmationFlow → StoreM A}
    (missing : ∀ s', KeepsGood H journal R Good MayWrite (next none) s')
    (found : ∀ flow m s', R s m → R m s' → Good s' id flow →
      KeepsGood H journal R Good MayWrite (next (some flow)) s') :
    KeepsGood H journal R Good MayWrite (.op (.inl (.get id)) next) s := by
  intro m later good a s' did
  obtain ⟨kept, same, is⟩ := rules.get m id a s' did
  refine ⟨all_good_same rules good kept same, kept, nofun, ?_⟩
  cases a with
  | none => exact missing s'
  | some flow =>
    exact found flow m s' later kept (rules.lasting m s' id flow kept (good id flow is.symm))

theorem clock_keeps {s : σ} {next : DateTime → StoreM A}
    (rest : ∀ t s', Reads H R s t s' → KeepsGood H journal R Good MayWrite (next t) s') :
    KeepsGood H journal R Good MayWrite (.op (.inr ()) next) s := by
  intro m later good (t : DateTime) s' did
  obtain ⟨kept, same⟩ := rules.clock m t s' did
  exact ⟨all_good_same rules good kept same, kept, nofun, rest t s' ⟨m, later, did⟩⟩

theorem commit_keeps {s : σ} {id : Str} {flow : ExampleConfirmationFlow}
    (may : MayWrite s id flow) (a : A) :
    KeepsGood H journal R Good MayWrite (.op (.inl (.put id flow)) fun _ => .ret a) s := by
  intro m later good _ s' did
  obtain ⟨kept, wrote⟩ := rules.put m id flow _ s' did
  have mayNow : MayWrite m id flow := rules.mayLast s m id flow later may
  refine ⟨fun id' flow' stored => ?_, kept, ?_, fun _ _ _ => trivial⟩
  · rw [wrote] at stored
    rcases lookup_insert_cases stored with ⟨rfl, rfl⟩ | ⟨_, before⟩
    · exact rules.lasting m s' id' flow' kept (rules.good m id' flow' mayNow)
    · exact rules.lasting m s' id' flow' kept (good id' flow' before)
  · rintro id' flow' ⟨⟩
    exact mayNow

/-- A call that writes what it may write keeps all records good, at whatever
    moments its steps are taken. -/
theorem call_keeps [IsTrans σ R] {call : StoreCall} {s : σ}
    (writes : WritesAllowed H R Good MayWrite s call) :
    KeepsGood H journal R Good MayWrite call.program s := by
  cases call with
  | start response request =>
    obtain ⟨transactionId, number⟩ := response
    cases transactionId with
    | none => exact clock_keeps rules fun _ _ _ _ _ _ => trivial
    | some id =>
      exact clock_keeps rules fun created s' read =>
        commit_keeps rules (writes id created s' rfl read) _
  | get id => exact read_keeps rules (fun _ _ _ _ => trivial) (fun _ _ _ _ _ _ _ _ _ => trivial)
  | markCallbackReceived request =>
    obtain ⟨transactionId, number⟩ := request
    cases transactionId with
    | none => exact fun _ _ _ => trivial
    | some id =>
      refine read_keeps rules (fun _ _ _ _ => trivial) fun flow m s₁ first second good => ?_
      exact clock_keeps rules fun c s₂ readC => clock_keeps rules fun t s₃ readT =>
        commit_keeps rules
          (writes id flow c t s₁ s₂ s₃ rfl (trans_of R first second) good readC readT) _
  | markManualStatus id status =>
    refine read_keeps rules (fun _ _ _ _ => trivial) fun flow m s₁ first second good => ?_
    obtain ⟨waits, decides⟩ := writes flow s₁ (trans_of R first second) good
    by_cases waiting : status = .unhandled
    · have written := waits waiting
      subst waiting
      exact clock_keeps rules fun t s₂ read => commit_keeps rules (written t s₂ read) _
    · have written := decides waiting
      simp only [waiting, if_false]
      exact clock_keeps rules fun c s₂ readC => clock_keeps rules fun t s₃ readT =>
        commit_keeps rules (written c t s₂ s₃ readC readT) _

end Rules
end RusAuthExample
