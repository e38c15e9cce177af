import RusAuthExample.InterleavedRuns

/-!
Operations carried out by programs, reduced to single steps. A task that begins an
operation looks around for a while and finishes with one last step. Where all that it
has seen could be seen again just before that step, the operation might as well have
been done there at once. A run in which this is always so is a run of single steps.
-/
namespace LateCommits
open OperationPrograms InterleavedRuns

variable {S T : Signature} {X A B σ ι : Type}

def Repeatable (H : Semantics S σ) (s : σ) (seen : List (Performed S)) : Prop :=
  ∀ o ∈ seen, H s o.1 o.2 s

/-- The programs `h` carry out the operations: what comes before the last step leaves
    the state alone, and the last step does it all. -/
structure CarriesOut (H : Semantics S σ) (J : Semantics T σ)
    (h : (e : T.Op) → Prog S X (T.Answer e)) : Prop where
  total : ∀ e, (h e).Total
  nothing : ∀ e a s, h e = .ret a → J s e a s
  early : ∀ e seen o next b s s', Prog.Path (h e) seen (.op o next) → H s o b s' →
    (∀ a, next b ≠ .ret a) → s' = s
  last : ∀ e seen o next b a s s', Prog.Path (h e) seen (.op o next) → Repeatable H s seen →
    H s o b s' → next b = .ret a → J s e a s'

structure ShowsLast (h : (e : T.Op) → Prog S X (T.Answer e)) (out : Performed S → Option B)
    (out' : Performed T → Option B) : Prop where
  nothing : ∀ e a, h e = .ret a → out' ⟨e, a⟩ = none
  early : ∀ e seen o next b, Prog.Path (h e) seen (.op o next) → (∀ a, next b ≠ .ret a) →
    out ⟨o, b⟩ = none
  last : ∀ e seen o next b a, Prog.Path (h e) seen (.op o next) → next b = .ret a →
    out ⟨o, b⟩ = out' ⟨e, a⟩

def shown (out : Performed S → Option B) (tr : List (Label S ι)) : List (ι × B) :=
  tr.filterMap fun l => (out l.2).map (Prod.mk l.1)

theorem shown_append (out : Performed S → Option B) (xs ys : List (Label S ι)) :
    shown out (xs ++ ys) = shown out xs ++ shown out ys := List.filterMap_append

theorem shown_single {out : Performed S → Option B} {out' : Performed T → Option B}
    {o : Performed S} {e : Performed T} (same : out o = out' e) (i : ι) :
    shown out [(i, o)] = shown out' [(i, e)] := by
  simp only [shown, List.filterMap_cons, same]
  rfl

theorem shown_hidden {out : Performed S → Option B} {o : Performed S} (hidden : out o = none)
    (i : ι) : shown out [(i, o)] = [] := by
  simp [shown, hidden]

/-- A task that carries out operations beside one that performs them: level with it,
    or within an operation that the other has not performed yet. -/
inductive Abreast (h : (e : T.Op) → Prog S X (T.Answer e)) (past : List (Performed S)) :
    Prog T X A → Prog S X A → Prop where
  | level (p : Prog T X A) : Abreast h past p (p.interp h)
  | within {e : T.Op} {next : T.Answer e → Prog T X A} {before seen : List (Performed S)}
      {o : S.Op} {k : S.Answer o → Prog S X (T.Answer e)}
      (path : Prog.Path (h e) seen (.op o k)) (did : past = before ++ seen) :
      Abreast h past (.op e next) ((Prog.op o k).bind fun a => (next a).interp h)

variable [DecidableEq ι] {H : Semantics S σ} {J : Semantics T σ}
  {h : (e : T.Op) → Prog S X (T.Answer e)} {out : Performed S → Option B}
  {out' : Performed T → Option B}

structure Tracks (h : (e : T.Op) → Prog S X (T.Answer e)) (tr : List (Label S ι))
    (q : Pool T X A σ ι) (r : Pool S X A σ ι) : Prop where
  shared : q.shared = r.shared
  task : ∀ i, Abreast h (own i tr) (q.task i) (r.task i)

theorem catch_up (carries : CarriesOut H J h) (shows : ShowsLast h out out') {q : Pool T X A σ ι}
    {i : ι} {o : S.Op} {next : S.Answer o → Prog S X A} (ready : (q.task i).interp h = .op o next) :
    ∃ tr q' e rest k, Exec (fun _ => J) q tr q' ∧ shown out' tr = [] ∧ q'.shared = q.shared ∧
      (∀ j, j ≠ i → q'.task j = q.task j) ∧ q'.task i = .op e rest ∧ h e = .op o k ∧
      next = fun b => (k b).bind fun a => (rest a).interp h := by
  generalize same : q.task i = p at ready
  induction p generalizing q with
  | ret a => cases ready
  | raise x => cases ready
  | op e rest ih =>
    simp only [Prog.interp] at ready
    cases begins : h e with
    | raise x =>
      have total := carries.total e
      rw [begins] at total
      exact total.elim
    | op o' k =>
      rw [begins] at ready
      cases ready
      exact ⟨[], q, e, rest, k, .nil, rfl, rfl, fun _ _ => rfl, same, begins, rfl⟩
    | ret a =>
      rw [begins] at ready
      have step : Step (fun _ => J) q (i, ⟨e, a⟩) ⟨q.shared, Function.update q.task i (rest a)⟩ :=
        .act same (carries.nothing e a q.shared begins)
      obtain ⟨tr, q', e', rest', k, run, hidden, kept, others, now, starts, is⟩ :=
        ih a (q := ⟨q.shared, Function.update q.task i (rest a)⟩) (Function.update_self _ _ _) ready
      refine ⟨(i, ⟨e, a⟩) :: tr, q', e', rest', k, exec_cons step run, ?_, kept, ?_, now, starts,
        is⟩
      · rw [← List.singleton_append, shown_append, hidden,
          shown_hidden (shows.nothing e a begins)]
        rfl
      · intro j other
        rw [others j other]
        exact Function.update_of_ne other _ _

theorem carry_on (carries : CarriesOut H J h) (shows : ShowsLast h out out')
    {tr : List (Label S ι)} {q : Pool T X A σ ι} {r : Pool S X A σ ι} {i : ι}
    (shared : q.shared = r.shared)
    (others : ∀ j, j ≠ i → Abreast h (own j tr) (q.task j) (r.task j)) {e : T.Op}
    {rest : T.Answer e → Prog T X A} (stands : q.task i = .op e rest)
    {before seen : List (Performed S)} (did : own i tr = before ++ seen) {o : S.Op}
    {k : S.Answer o → Prog S X (T.Answer e)} (path : Prog.Path (h e) seen (.op o k)) {b : S.Answer o}
    {s' : σ} (effect : H r.shared o b s')
    (fresh : (∃ a, k b = .ret a) → Repeatable H r.shared seen) :
    ∃ tr' q', Exec (fun _ => J) q tr' q' ∧ shown out' tr' = shown out [(i, ⟨o, b⟩)] ∧
      Tracks h (tr ++ [(i, ⟨o, b⟩)]) q'
        ⟨s', Function.update r.task i ((k b).bind fun a => (rest a).interp h)⟩ := by
  have elsewhere : ∀ j, j ≠ i → own j (tr ++ [(i, ⟨o, b⟩)]) = own j tr := fun j other =>
    own_snoc_other other tr _
  have stays : (∀ a, k b ≠ .ret a) → shown out [(i, ⟨o, b⟩)] = [] := fun goes =>
    shown_hidden (shows.early e seen o k b path goes) i
  cases answered : k b with
  | ret a =>
    have performs : J q.shared e a s' := by
      rw [shared]
      exact carries.last e seen o k b a _ _ path (fresh ⟨a, answered⟩) effect answered
    refine ⟨[(i, ⟨e, a⟩)], ⟨s', Function.update q.task i (rest a)⟩, .snoc .nil (.act stands performs),
      (shown_single (shows.last e seen o k b a path answered) i).symm, rfl, fun j => ?_⟩
    by_cases mine : j = i
    · subst mine
      simpa [Prog.bind] using Abreast.level (rest a)
    · rw [elsewhere j mine]
      simpa [Function.update_of_ne mine] using others j mine
  | raise x =>
    have failed := Prog.path_snoc path rfl b
    rw [answered] at failed
    exact (Prog.total_path (carries.total e) failed).elim
  | op o' k' =>
    have goes : ∀ a, k b ≠ .ret a := fun a ends => by
      rw [answered] at ends
      cases ends
    have same : s' = r.shared := carries.early e seen o k b _ _ path effect goes
    refine ⟨[], q, .nil, (stays goes).symm, shared.trans same.symm, fun j => ?_⟩
    by_cases mine : j = i
    · subst mine
      have longer := Prog.path_snoc path rfl b
      rw [answered] at longer
      have inside : Abreast h (before ++ (seen ++ [⟨o, b⟩])) (.op e rest)
          ((Prog.op o' k').bind fun a => (rest a).interp h) := .within longer rfl
      rw [stands, own_snoc_self, did, List.append_assoc]
      simpa using inside
    · rw [elsewhere j mine]
      simpa [Function.update_of_ne mine] using others j mine

/-- The condition under which a last step is taken lets what was seen be seen again. -/
def KeepsFresh (H : Semantics S σ) (h : (e : T.Op) → Prog S X (T.Answer e))
    (C : List (Label S ι) → Pool S X A σ ι → Label S ι → Prop) : Prop :=
  ∀ tr m i o b before seen e k, C tr m (i, ⟨o, b⟩) → own i tr = before ++ seen →
    Prog.Path (h e) seen (.op o k) → (∃ a, k b = .ret a) → Repeatable H m.shared seen

theorem tracks_step (carries : CarriesOut H J h) (shows : ShowsLast h out out')
    {C : List (Label S ι) → Pool S X A σ ι → Label S ι → Prop} (keeps : KeepsFresh H h C)
    {tr : List (Label S ι)} {q : Pool T X A σ ι} {r r' : Pool S X A σ ι} {l : Label S ι}
    (tracks : Tracks h tr q r) (step : Step (fun _ => H) r l r') (meets : C tr r l) :
    ∃ tr' q', Exec (fun _ => J) q tr' q' ∧ shown out' tr' = shown out [l] ∧
      Tracks h (tr ++ [l]) q' r' := by
  cases step with
  | @act i o next b s' ready effect =>
    have others : ∀ j, j ≠ i → Abreast h (own j tr) (q.task j) (r.task j) := fun j _ =>
      tracks.task j
    have stands := tracks.task i
    generalize coarse : q.task i = p at stands
    generalize fine : r.task i = f at stands
    cases stands with
    | level =>
      have begins : (q.task i).interp h = .op o next := by rw [coarse]; exact fine.symm.trans ready
      obtain ⟨xs, q', e, rest, k, run, hidden, kept, same, now, starts, rfl⟩ :=
        catch_up carries shows begins
      have path : Prog.Path (h e) [] (.op o k) := starts ▸ .nil _
      obtain ⟨ys, q'', run', seen, after⟩ := carry_on carries shows (kept.trans tracks.shared)
        (fun j other => same j other ▸ others j other) now (List.append_nil _).symm path effect
        (fun _ => nofun)
      exact ⟨xs ++ ys, q'', exec_trans run run', by rw [shown_append, hidden, seen]; rfl, after⟩
    | @within e rest before seen o' k path did =>
      rw [ready] at fine
      cases fine
      exact carry_on carries shows tracks.shared others coarse did path effect
        (keeps tr r i o b before seen e k meets did path)

/-- A run in which every operation is finished on what is still so is a run of
    single steps: it ends in the same state, and the same is seen of it in the same
    order. -/
theorem guided_is_atomic (carries : CarriesOut H J h) (shows : ShowsLast h out out')
    {C : List (Label S ι) → Pool S X A σ ι → Label S ι → Prop} (keeps : KeepsFresh H h C)
    {q : Pool T X A σ ι} {r : Pool S X A σ ι} {tr : List (Label S ι)}
    (run : Guided (fun _ => H) C ⟨q.shared, fun i => (q.task i).interp h⟩ tr r) :
    ∃ tr' q', Exec (fun _ => J) q tr' q' ∧ shown out' tr' = shown out tr ∧ Tracks h tr q' r := by
  induction run with
  | nil => exact ⟨[], q, .nil, rfl, rfl, fun i => .level _⟩
  | snoc before last meets ih =>
    obtain ⟨xs, q', sofar, seen, tracks⟩ := ih
    obtain ⟨ys, q'', on, seen', after⟩ := tracks_step carries shows keeps tracks last meets
    exact ⟨xs ++ ys, q'', exec_trans sofar on, by rw [shown_append, shown_append, seen, seen'],
      after⟩

end LateCommits
