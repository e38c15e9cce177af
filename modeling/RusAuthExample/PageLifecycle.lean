import RusAuthExample.ApplicationRuns

/-!
The subscriber list of the notifier over the lives of the pages. A page adds its
handler when it is initialised and removes it when it is disposed. Whatever else
happens meanwhile, and however the store is modelled, the list is the history of
these two steps.
-/
namespace RusAuthExample
open OperationPrograms InterleavedRuns

variable {ς ι τ X A : Type} {S : Signature}

def openedBy : (S.sum (rusAuthSig.sum hostSig)).Op → Option Page
  | .inr (.inr (.addHandler page)) => some page
  | _ => none

def disposedBy : (S.sum (rusAuthSig.sum hostSig)).Op → Option Page
  | .inr (.inr (.removeHandler page)) => some page
  | _ => none

def opened (tr : OuterTrace S ι) : List Page := tr.filterMap fun l => openedBy l.2.1

def disposed (tr : OuterTrace S ι) : List Page := tr.filterMap fun l => disposedBy l.2.1

def livePages (tr : OuterTrace S ι) : List Page :=
  (opened tr).filter fun page => page ∉ disposed tr

/-- A page is initialised once at most, and disposed only after that. -/
structure Lifecycle (tr : OuterTrace S ι) : Prop where
  once : (opened tr).Nodup
  after : ∀ xs l ys page, tr = xs ++ l :: ys → disposedBy l.2.1 = some page → page ∈ opened xs

theorem opened_append (xs ys : OuterTrace S ι) : opened (xs ++ ys) = opened xs ++ opened ys :=
  List.filterMap_append

theorem disposed_append (xs ys : OuterTrace S ι) :
    disposed (xs ++ ys) = disposed xs ++ disposed ys := List.filterMap_append

theorem lifecycle_before {xs ys : OuterTrace S ι} (lives : Lifecycle (xs ++ ys)) : Lifecycle xs where
  once := by
    have all := lives.once
    rw [opened_append] at all
    exact (List.nodup_append.mp all).1
  after us l vs page split disposes := lives.after us l (vs ++ ys) page (by simp [split]) disposes

/-- A run with one disposal, of a page initialised before. -/
theorem lifecycle_of_one (page : Page) {xs ys : OuterTrace S ι}
    {l : Label (S.sum (rusAuthSig.sum hostSig)) ι} (once : (opened (xs ++ l :: ys)).Nodup)
    (first : page ∈ opened xs)
    (only : disposed (xs ++ l :: ys) = [page]) (before : disposed xs = []) :
    Lifecycle (xs ++ l :: ys) where
  once := once
  after us l' vs p cut disposes := by
    have gone : p ∈ disposed (xs ++ l :: ys) :=
      List.mem_filterMap.mpr ⟨l', by rw [cut]; simp, disposes⟩
    rw [only, List.mem_singleton] at gone
    subst gone
    rcases List.append_eq_append_iff.mp cut with ⟨zs, rfl, _⟩ | ⟨zs, whole, rest⟩
    · rw [opened_append]
      exact List.mem_append_left _ first
    · cases zs with
      | nil =>
        rw [List.append_nil] at whole
        rwa [← whole]
      | cons l'' zs =>
        obtain ⟨rfl, _⟩ := List.cons.inj rest
        have early : p ∈ disposed xs :=
          List.mem_filterMap.mpr ⟨l', by rw [whole]; simp, disposes⟩
        rw [before] at early
        cases early

theorem disposed_subset_opened {tr : OuterTrace S ι} (lives : Lifecycle tr) {page : Page}
    (gone : page ∈ disposed tr) : page ∈ opened tr := by
  obtain ⟨l, member, disposes⟩ := List.mem_filterMap.mp gone
  obtain ⟨xs, ys, rfl⟩ := List.append_of_mem member
  rw [opened_append]
  exact List.mem_append_left _ (lives.after xs l ys page rfl disposes)

theorem live_nodup {tr : OuterTrace S ι} (lives : Lifecycle tr) : (livePages tr).Nodup :=
  lives.once.filter _

theorem remove_last_of_nodup {handlers : List Page} (distinct : handlers.Nodup) (page : Page) :
    removeLast handlers page = handlers.filter fun p => p ≠ page := by
  rw [removeLast, (List.nodup_reverse.mpr distinct).erase_eq_filter, List.filter_reverse,
    List.reverse_reverse]
  refine List.filter_congr fun p _ => ?_
  by_cases same : p = page <;> simp [same]

section Steps
variable {rusAuth : Semantics rusAuthSig ς} {J : Semantics S τ} {s s' : τ × ς × Circuits}
  {tr : OuterTrace S ι} {i : ι} {e : (S.sum (rusAuthSig.sum hostSig)).Op}
  {a : (S.sum (rusAuthSig.sum hostSig)).Answer e}

theorem handlers_step (did : beside J (beside rusAuth hostEffect) s e a s') :
    (∃ page, openedBy e = some page ∧ disposedBy e = none ∧
      s'.2.2.handlers = s.2.2.handlers ++ [page]) ∨
    (∃ page, openedBy e = none ∧ disposedBy e = some page ∧
      s'.2.2.handlers = removeLast s.2.2.handlers page) ∨
    (openedBy e = none ∧ disposedBy e = none ∧ s'.2.2.handlers = s.2.2.handlers) := by
  match e with
  | .inl e => exact Or.inr (Or.inr ⟨rfl, rfl, by rw [did.2]⟩)
  | .inr (.inl e) => exact Or.inr (Or.inr ⟨rfl, rfl, by rw [did.1.2]⟩)
  | .inr (.inr e) =>
    obtain ⟨renders, _, after⟩ := host_answered did
    rw [after]
    cases e with
    | addHandler page => exact Or.inl ⟨page, rfl, rfl, rfl⟩
    | removeHandler page => exact Or.inr (Or.inl ⟨page, rfl, rfl, rfl⟩)
    | _ => exact Or.inr (Or.inr ⟨rfl, rfl, rfl⟩)

theorem live_step (did : beside J (beside rusAuth hostEffect) s e a s')
    (lives : Lifecycle (tr ++ [(i, ⟨e, a⟩)])) (sofar : s.2.2.handlers = livePages tr) :
    s'.2.2.handlers = livePages (tr ++ [(i, ⟨e, a⟩)]) := by
  have before := lifecycle_before lives
  have opens : opened (tr ++ [(i, ⟨e, a⟩)]) = opened tr ++ (openedBy e).toList := by
    rw [opened_append]
    cases added : openedBy e <;> simp [opened, added]
  have closes : disposed (tr ++ [(i, ⟨e, a⟩)]) = disposed tr ++ (disposedBy e).toList := by
    rw [disposed_append]
    cases removed : disposedBy e <;> simp [disposed, removed]
  rw [livePages, opens, closes]
  rcases handlers_step did with ⟨page, adds, keeps, after⟩ | ⟨page, keeps, removes, after⟩ |
    ⟨keeps, keeps', after⟩
  · have new : page ∉ opened tr := by
      have all := lives.once
      rw [opens, adds] at all
      intro member
      exact (List.nodup_append.mp all).2.2 page member page (by simp) rfl
    have open' : page ∉ disposed tr := fun gone => new (disposed_subset_opened before gone)
    rw [after, sofar, adds, keeps]
    simp [livePages, open']
  · rw [after, sofar, keeps, removes, remove_last_of_nodup (live_nodup before), livePages,
      List.filter_filter, Option.toList_none, List.append_nil]
    refine List.filter_congr fun p _ => ?_
    simp [and_comm]
  · rw [after, sofar, keeps, keeps', Option.toList_none, List.append_nil, List.append_nil]
    rfl

end Steps

/-- The notifier's list is the initialised, not yet disposed pages, each once and
    in the order of their initialisation. -/
theorem handlers_live [DecidableEq ι] {rusAuth : Semantics rusAuthSig ς} {J : Semantics S τ}
    {p q : Pool (S.sum (rusAuthSig.sum hostSig)) X A (τ × ς × Circuits) ι} {tr : OuterTrace S ι}
    (run : Exec (fun _ => beside J (beside rusAuth hostEffect)) p tr q)
    (none : p.shared.2.2.handlers = []) (lives : Lifecycle tr) :
    q.shared.2.2.handlers = livePages tr := by
  induction run with
  | nil => exact none
  | snoc before last ih =>
    have sofar := ih (lifecycle_before lives)
    cases last with
    | act ready did => exact live_step did lives sofar

end RusAuthExample
