import RusAuthExample.KeyedMemory

/-!
What a memory of whole records can lose when nobody compares before writing
back. Without any assumption on the clients, the record under a key is always
what a serial order of some of its writers leaves. A writer is missing from the
order only if its write fell between the read and the write-back of one in it:
the overwritten update is the only anomaly.
-/
namespace KeyedMemory
open OperationPrograms InterleavedRuns

variable {K V X ι : Type}

/-- `j` wrote the record between the read of `i` and the write-back of `i`. -/
def Overlaid (k : K) (tr : List (Label (keyed K V) ι)) (j i : ι) : Prop :=
  ∃ xs ys zs ws seen u w, tr = xs ++ (i, ⟨.get k, seen⟩) :: ys ++ (j, ⟨.put k u, ()⟩) :: zs ++
    (i, ⟨.put k w, ()⟩) :: ws

theorem overlaid_append {k : K} {tr : List (Label (keyed K V) ι)} {j i : ι}
    (lost : Overlaid k tr j i) (more : List (Label (keyed K V) ι)) :
    Overlaid k (tr ++ more) j i := by
  obtain ⟨xs, ys, zs, ws, seen, u, w, rfl⟩ := lost
  exact ⟨xs, ys, zs, ws ++ more, seen, u, w, by simp⟩

variable [DecidableEq K]

def putter (k : K) : Label (keyed K V) ι → Option ι
  | (_, ⟨.get _, _⟩) => none
  | (i, ⟨.put k' _, _⟩) => if k' = k then some i else none

/-- Who wrote under the key, in the order of the writes. -/
def writers (k : K) (tr : List (Label (keyed K V) ι)) : List ι := tr.filterMap (putter k)

theorem writers_append (k : K) (xs ys : List (Label (keyed K V) ι)) :
    writers k (xs ++ ys) = writers k xs ++ writers k ys := List.filterMap_append

@[simp] theorem writers_put (k : K) (i : ι) (v : V) :
    writers k [((i, ⟨.put k v, ()⟩) : Label (keyed K V) ι)] = [i] := by
  simp [writers, putter]

theorem writers_quiet {k : K} {l : Label (keyed K V) ι} (quiet : putter k l = none)
    (tr : List (Label (keyed K V) ι)) : writers k (tr ++ [l]) = writers k tr := by
  rw [writers_append]
  simp [writers, quiet]

theorem put_of_writer {k : K} {j : ι} {tr : List (Label (keyed K V) ι)} (wrote : j ∈ writers k tr) :
    ∃ v, (j, ⟨.put k v, ()⟩) ∈ tr := by
  obtain ⟨⟨i, o⟩, member, puts⟩ := List.mem_filterMap.mp wrote
  obtain ⟨e, a⟩ := o
  cases e with
  | get k' => simp [putter] at puts
  | put k' v =>
    simp only [putter, Option.ite_none_right_eq_some, Option.some.injEq] at puts
    obtain ⟨rfl, rfl⟩ := puts
    exact ⟨v, member⟩

theorem overlaid_by_write_back {k : K} {xs ys : List (Label (keyed K V) ι)} {j i : ι}
    {seen : Option V} (w : V) (wrote : j ∈ writers k ys) :
    Overlaid k (xs ++ (i, ⟨.get k, seen⟩) :: ys ++ [(i, ⟨.put k w, ()⟩)]) j i := by
  obtain ⟨u, member⟩ := put_of_writer wrote
  obtain ⟨before, after, rfl⟩ := List.append_of_mem member
  exact ⟨xs, before, after, [], seen, u, w, by simp⟩

/-- Some of the writers, one at a time, leave `found` under the key; the last
    writer is one of them, and each writer left out was overlaid by one of them. -/
structure Explains (access : ι → Access K V X) (m : Memory K V) (k : K)
    (tr : List (Label (keyed K V) ι)) (order : List ι) (found : Option V) : Prop where
  some_writers : order.Sublist (writers k tr)
  last : order.getLast? = (writers k tr).getLast?
  result : (serial access m order).lookup k = found
  lost : ∀ j ∈ writers k tr, j ∉ order → ∃ i ∈ order, Overlaid k tr j i

/-- A client about to write back what it computed from the copy it holds. -/
def Copied (access : ι → Access K V X) (m : Memory K V) (k : K)
    (tr : List (Label (keyed K V) ι)) (i : ι) (p : Prog (keyed K V) X (Option V)) : Prop :=
  ∃ k' f v, access i = .update k' f ∧ p = commit k' (f v) ∧
    (k' = k → ∃ xs ys order, tr = xs ++ (i, ⟨.get k, some v⟩) :: ys ∧
      Explains access m k xs order (some v))

structure Explained (access : ι → Access K V X) (m : Memory K V) (k : K)
    (tr : List (Label (keyed K V) ι)) (q : Clients K V X ι) : Prop where
  once : (writers k tr).Nodup
  done : ∀ i ∈ writers k tr, Finished (q.task i)
  stored : ∃ order, Explains access m k tr order (q.shared.lookup k)
  tasks : ∀ i, q.task i = (access i).prog ∨ Finished (q.task i) ∨
    Copied access m k tr i (q.task i)

section Steps
variable {access : ι → Access K V X} {m : Memory K V} {k : K}
  {tr : List (Label (keyed K V) ι)} {q : Clients K V X ι}

theorem serial_snoc (access : ι → Access K V X) (m : Memory K V) (order : List ι) (i : ι) :
    serial access m (order ++ [i]) = (access i).alone (serial access m order) := by
  rw [serial_append]
  rfl

theorem alone_write (k : K) (v : V) (m : Memory K V) :
    (Access.write k v : Access K V X).alone m = m.insert k v := rfl

theorem explains_quiet {order : List ι} {found : Option V} {l : Label (keyed K V) ι}
    (sofar : Explains access m k tr order found) (quiet : putter k l = none) :
    Explains access m k (tr ++ [l]) order found := by
  constructor
  case some_writers => simpa only [writers_quiet quiet] using sofar.some_writers
  case last => simpa only [writers_quiet quiet] using sofar.last
  case result => exact sofar.result
  case lost =>
    intro j wrote out
    rw [writers_quiet quiet] at wrote
    obtain ⟨i, listed, lost⟩ := sofar.lost j wrote out
    exact ⟨i, listed, overlaid_append lost [l]⟩

/-- The writer takes the last place of an order that explained an earlier
    record; whoever wrote since then is overlaid by it. -/
theorem explains_put {xs ys : List (Label (keyed K V) ι)} {order : List ι} {found : Option V}
    {i : ι} {u : V} (earlier : Explains access m k xs order found)
    (same : ((access i).alone (serial access m order)).lookup k = some u)
    (since : ∀ j ∈ writers k ys, Overlaid k (xs ++ ys ++ [(i, ⟨.put k u, ()⟩)]) j i) :
    Explains access m k (xs ++ ys ++ [(i, ⟨.put k u, ()⟩)]) (order ++ [i]) (some u) := by
  have all : writers k (xs ++ ys ++ [((i, ⟨.put k u, ()⟩) : Label (keyed K V) ι)]) =
      writers k xs ++ writers k ys ++ [i] := by
    rw [writers_append, writers_append, writers_put]
  constructor
  case some_writers =>
    rw [all]
    apply List.Sublist.append _ (List.Sublist.refl [i])
    exact earlier.some_writers.trans (List.sublist_append_left _ _)
  case last =>
    rw [all]
    simp
  case result =>
    rw [serial_snoc]
    exact same
  case lost =>
    intro j wrote out
    rw [List.mem_append, List.mem_singleton, not_or] at out
    rw [all, List.mem_append, List.mem_append, List.mem_singleton] at wrote
    rcases wrote with (before | recent) | mine
    · obtain ⟨i', listed, lost⟩ := earlier.lost j before out.1
      refine ⟨i', List.mem_append_left _ listed, ?_⟩
      rw [List.append_assoc]
      exact overlaid_append lost _
    · exact ⟨i, by simp, since j recent⟩
    · exact absurd mine out.2

theorem copied_append {i : ι} {p : Prog (keyed K V) X (Option V)}
    (copy : Copied access m k tr i p) (l : Label (keyed K V) ι) :
    Copied access m k (tr ++ [l]) i p := by
  obtain ⟨k', f, v, shape, rest, seen⟩ := copy
  refine ⟨k', f, v, shape, rest, ?_⟩
  intro same
  obtain ⟨xs, ys, order, rfl, earlier⟩ := seen same
  exact ⟨xs, ys ++ [l], order, by simp, earlier⟩

variable [DecidableEq ι]

theorem tasks_step (sofar : Explained access m k tr q) {i : ι} {l : Label (keyed K V) ι}
    {p : Prog (keyed K V) X (Option V)}
    (rest : Finished p ∨ Copied access m k (tr ++ [l]) i p) (j : ι) :
    Function.update q.task i p j = (access j).prog ∨ Finished (Function.update q.task i p j) ∨
      Copied access m k (tr ++ [l]) j (Function.update q.task i p j) := by
  by_cases mine : j = i
  · subst mine
    rw [Function.update_self]
    exact Or.inr rest
  · rw [Function.update_of_ne mine]
    rcases sofar.tasks j with idle | done | copy
    · exact Or.inl idle
    · exact Or.inr (Or.inl done)
    · exact Or.inr (Or.inr (copied_append copy l))

theorem done_step (sofar : Explained access m k tr q) {i : ι} {e : (keyed K V).Op}
    {next : (keyed K V).Answer e → Prog (keyed K V) X (Option V)} (ready : q.task i = .op e next)
    (p : Prog (keyed K V) X (Option V)) {j : ι} (wrote : j ∈ writers k tr) :
    Finished (Function.update q.task i p j) := by
  have done := sofar.done j wrote
  have other : j ≠ i := by
    intro same
    exact done e next (same ▸ ready)
  rwa [Function.update_of_ne other]

theorem explained_quiet (sofar : Explained access m k tr q) {i : ι} {e : (keyed K V).Op}
    {next : (keyed K V).Answer e → Prog (keyed K V) X (Option V)} {a : (keyed K V).Answer e}
    {m' : Memory K V} (ready : q.task i = .op e next) (quiet : putter k (i, ⟨e, a⟩) = none)
    (same : m'.lookup k = q.shared.lookup k)
    (rest : Finished (next a) ∨ Copied access m k (tr ++ [(i, ⟨e, a⟩)]) i (next a)) :
    Explained access m k (tr ++ [(i, ⟨e, a⟩)]) ⟨m', Function.update q.task i (next a)⟩ := by
  obtain ⟨order, explains⟩ := sofar.stored
  constructor
  case once => simpa only [writers_quiet quiet] using sofar.once
  case done =>
    intro j wrote
    rw [writers_quiet quiet] at wrote
    exact done_step sofar ready _ wrote
  case stored =>
    refine ⟨order, ?_⟩
    rw [same]
    exact explains_quiet explains quiet
  case tasks => exact tasks_step sofar rest

theorem explained_put (sofar : Explained access m k tr q) {i : ι} {u : V} {order : List ι}
    {next : Unit → Prog (keyed K V) X (Option V)} (ready : q.task i = .op (.put k u) next)
    (last : Finished (next ()))
    (explains : Explains access m k (tr ++ [(i, ⟨.put k u, ()⟩)]) order (some u)) :
    Explained access m k (tr ++ [(i, ⟨.put k u, ()⟩)])
      ⟨q.shared.insert k u, Function.update q.task i (next ())⟩ := by
  have all : writers k (tr ++ [((i, ⟨.put k u, ()⟩) : Label (keyed K V) ι)]) =
      writers k tr ++ [i] := by
    rw [writers_append, writers_put]
  constructor
  case once =>
    rw [all]
    apply List.nodup_append.mpr
    refine ⟨sofar.once, List.nodup_singleton i, ?_⟩
    intro j wrote j' mine same
    rw [List.mem_singleton] at mine
    subst mine same
    exact sofar.done j wrote _ _ ready
  case done =>
    intro j wrote
    rw [all, List.mem_append, List.mem_singleton] at wrote
    rcases wrote with before | mine
    · exact done_step sofar ready _ before
    · subst mine
      simpa using last
  case stored =>
    refine ⟨order, ?_⟩
    rw [AList.lookup_insert]
    exact explains
  case tasks => exact tasks_step sofar (Or.inl last)

theorem explained_step (sofar : Explained access m k tr q) {l : Label (keyed K V) ι}
    {q' : Clients K V X ι} (step : Step (fun _ => effect) q l q') :
    Explained access m k (tr ++ [l]) q' := by
  cases step with
  | @act i e next a m' ready did =>
    rcases sofar.tasks i with idle | done | ⟨k', f, v, shape, copy, seen⟩
    · rw [ready] at idle
      cases shape : access i with
      | refuse x => rw [shape] at idle; cases idle
      | fetch k' =>
        rw [shape] at idle; cases idle
        obtain ⟨_, rfl⟩ := effect_get did
        exact explained_quiet sofar ready rfl rfl (Or.inl (finished_ret _))
      | write k' v =>
        rw [shape] at idle; cases idle
        obtain rfl := effect_put did
        by_cases same : k' = k
        · subst same
          obtain ⟨order, explains⟩ := sofar.stored
          have put : Explains access m k' (tr ++ [] ++ [(i, ⟨.put k' v, ()⟩)]) (order ++ [i])
              (some v) := by
            apply explains_put explains
            · rw [shape, alone_write, AList.lookup_insert]
            · simp [writers]
          rw [List.append_nil] at put
          exact explained_put sofar ready (finished_ret _) put
        · exact explained_quiet sofar ready (by simp [putter, same])
            (AList.lookup_insert_ne (Ne.symm same)) (Or.inl (finished_ret _))
      | update k' f =>
        rw [shape] at idle; cases idle
        obtain ⟨found, rfl⟩ := effect_get did
        apply explained_quiet sofar ready rfl rfl
        cases a with
        | none => exact Or.inl (finished_ret _)
        | some v =>
          refine Or.inr ⟨k', f, v, shape, rfl, ?_⟩
          intro same
          subst same
          obtain ⟨order, explains⟩ := sofar.stored
          exact ⟨tr, [], order, rfl, found ▸ explains⟩
    · exact absurd ready (done e next)
    · rw [ready] at copy
      cases copy
      obtain rfl := effect_put did
      by_cases same : k' = k
      · subst same
        obtain ⟨xs, ys, order, rfl, earlier⟩ := seen rfl
        apply explained_put sofar ready (finished_ret _)
        apply explains_put earlier
        · rw [shape, alone_update, earlier.result, AList.lookup_insert]
        · intro j wrote
          exact overlaid_by_write_back (f v) (by simpa [writers, putter] using wrote)
      · exact explained_quiet sofar ready (by simp [putter, same])
          (AList.lookup_insert_ne (Ne.symm same)) (Or.inl (finished_ret _))

end Steps

theorem explained_start (access : ι → Access K V X) (m : Memory K V) (k : K) :
    Explained access m k [] (start access m) := by
  constructor
  case once => exact List.nodup_nil
  case done => simp [writers]
  case stored => exact ⟨[], List.Sublist.refl _, rfl, rfl, by simp [writers]⟩
  case tasks => exact fun i => Or.inl rfl

variable [DecidableEq ι]

theorem explained_run {access : ι → Access K V X} {m : Memory K V}
    {tr : List (Label (keyed K V) ι)} {q : Clients K V X ι}
    (run : Exec (fun _ => effect) (start access m) tr q) (k : K) : Explained access m k tr q := by
  induction run with
  | nil => exact explained_start access m k
  | snoc before last ih => exact explained_step ih last

/-- Without overlaid writes the order is that of the writes, all of them. -/
theorem order_of_not_overlaid {access : ι → Access K V X} {m : Memory K V}
    {tr : List (Label (keyed K V) ι)} {q : Clients K V X ι}
    (run : Exec (fun _ => effect) (start access m) tr q) {k : K}
    (apart : ∀ j i, ¬ Overlaid k tr j i) :
    (serial access m (writers k tr)).lookup k = q.shared.lookup k := by
  have explained := explained_run run k
  obtain ⟨order, explains⟩ := explained.stored
  have every : writers k tr ⊆ order := by
    intro j wrote
    by_contra out
    obtain ⟨i, _, lost⟩ := explains.lost j wrote out
    exact apart j i lost
  have whole : order = writers k tr :=
    explains.some_writers.eq_of_length_le (explained.once.subperm every).length_le
  rw [← whole]
  exact explains.result

omit [DecidableEq K] [DecidableEq ι] in
theorem path_puts {access : Access K V X} {ops : List (Performed (keyed K V))}
    {p : Prog (keyed K V) X (Option V)} (path : Prog.Path access.prog ops p) {k : K} {v : V}
    (puts : ⟨.put k v, ()⟩ ∈ ops) : access = .write k v ∨ ∃ f, access = .update k f := by
  cases access with
  | refuse x =>
    rw [(Prog.path_raise path).1] at puts
    simp at puts
  | fetch k' =>
    cases path with
    | nil => simp at puts
    | cons rest =>
      rw [(Prog.path_ret rest).1] at puts
      cases List.mem_singleton.mp puts
  | write k' v' =>
    cases path with
    | nil => simp at puts
    | cons rest =>
      rw [(Prog.path_ret rest).1] at puts
      cases List.mem_singleton.mp puts
      exact Or.inl rfl
  | update k' f =>
    cases path with
    | nil => simp at puts
    | @cons _ _ a _ _ rest =>
      cases a with
      | none =>
        rw [(Prog.path_ret rest).1] at puts
        cases List.mem_singleton.mp puts
      | some found =>
        cases rest with
        | nil => cases List.mem_singleton.mp puts
        | cons rest =>
          rw [(Prog.path_ret rest).1] at puts
          rcases List.mem_cons.mp puts with read | wrote
          · cases read
          · cases List.mem_singleton.mp wrote
            exact Or.inr ⟨f, rfl⟩

theorem writer_access {access : ι → Access K V X} {m : Memory K V}
    {tr : List (Label (keyed K V) ι)} {q : Clients K V X ι}
    (run : Exec (fun _ => effect) (start access m) tr q) {k : K} {i : ι}
    (wrote : i ∈ writers k tr) : (∃ v, access i = .write k v) ∨ ∃ f, access i = .update k f := by
  obtain ⟨v, member⟩ := put_of_writer wrote
  rcases path_puts (exec_path run i) (mem_own.mpr member) with blind | update
  · exact Or.inl ⟨v, blind⟩
  · exact Or.inr update

omit [DecidableEq K] [DecidableEq ι] in
theorem reads_and_writes {access : Access K V X} {ops : List (Performed (keyed K V))}
    {p : Prog (keyed K V) X (Option V)} (path : Prog.Path access.prog ops p) {k : K}
    {seen : Option V} {w : V} (reads : ⟨.get k, seen⟩ ∈ ops) (writes : ⟨.put k w, ()⟩ ∈ ops) :
    ∃ f, access = .update k f := by
  rcases path_puts path writes with rfl | update
  · cases path with
    | nil => simp at reads
    | cons rest =>
      rw [(Prog.path_ret rest).1] at reads
      cases List.mem_singleton.mp reads
  · exact update

theorem update_of_overlaid {access : ι → Access K V X} {m : Memory K V}
    {tr : List (Label (keyed K V) ι)} {q : Clients K V X ι}
    (run : Exec (fun _ => effect) (start access m) tr q) {k : K} {j i : ι}
    (lost : Overlaid k tr j i) : ∃ f, access i = .update k f := by
  obtain ⟨xs, ys, zs, ws, seen, u, w, rfl⟩ := lost
  have path := exec_path run i
  have reads : (i, ⟨.get k, seen⟩) ∈ xs ++ (i, ⟨.get k, seen⟩) :: ys ++ (j, ⟨.put k u, ()⟩) :: zs ++
      (i, ⟨.put k w, ()⟩) :: ws := by simp
  have writes : (i, ⟨.put k w, ()⟩) ∈ xs ++ (i, ⟨.get k, seen⟩) :: ys ++ (j, ⟨.put k u, ()⟩) :: zs ++
      (i, ⟨.put k w, ()⟩) :: ws := by simp
  exact reads_and_writes path (mem_own.mpr reads) (mem_own.mpr writes)

end KeyedMemory
