import Mathlib.Data.List.AList
import RusAuthExample.RelyGuarantee

/-!
A memory of records under keys whose single reads and writes are atomic, and
clients that read a record, compute a new one and write it back in a second
step. Between the two steps other clients run, so the copy may be out of date
when it is written. A client that never has to overwrite a record it would have
computed differently commits at its last step: the order of the last steps is
then a serial order of the clients with the same memory.
-/
namespace KeyedMemory
open OperationPrograms InterleavedRuns

inductive KeyedOp (K V : Type) where
  | get (key : K)
  | put (key : K) (value : V)

def keyed (K V : Type) : Signature :=
  ⟨KeyedOp K V, fun | .get _ => Option V | .put _ _ => Unit⟩

abbrev Memory (K V : Type) := AList fun _ : K => V

variable {K V X ι : Type}

@[simp] theorem get_performed_inj {k k' : K} {a b : Option V} :
    ((⟨.get k, a⟩ : Performed (keyed K V)) = ⟨.get k', b⟩) ↔ k = k' ∧ a = b := by
  constructor
  · intro same
    cases same
    exact ⟨rfl, rfl⟩
  · rintro ⟨rfl, rfl⟩
    rfl

@[simp] theorem put_performed_inj {k k' : K} {v v' : V} {a b : Unit} :
    ((⟨.put k v, a⟩ : Performed (keyed K V)) = ⟨.put k' v', b⟩) ↔ k = k' ∧ v = v' := by
  constructor
  · intro same
    cases same
    exact ⟨rfl, rfl⟩
  · rintro ⟨rfl, rfl⟩
    rfl

@[simp] theorem put_ne_get {k k' : K} {v : V} {a : Unit} {b : Option V} :
    ((⟨.put k v, a⟩ : Performed (keyed K V)) = ⟨.get k', b⟩) ↔ False := by
  constructor
  · nofun
  · exact False.elim

/-- The shapes of a client: it may refuse at once, read, write blindly, or read
    a record and write the computed replacement under the same key. -/
inductive Access (K V X : Type) where
  | refuse (error : X)
  | fetch (key : K)
  | write (key : K) (value : V)
  | update (key : K) (f : V → V)

def commit (k : K) (v : V) : Prog (keyed K V) X (Option V) := .op (.put k v) fun _ => .ret (some v)

def Access.prog : Access K V X → Prog (keyed K V) X (Option V)
  | .refuse x => .raise x
  | .fetch k => .op (.get k) .ret
  | .write k v => commit k v
  | .update k f => .op (.get k) fun
    | none => .ret none
    | some v => commit k (f v)

theorem write_back_after_read {k k' : K} {f : V → V} {u : V} {ops : List (Performed (keyed K V))}
    {next : Unit → Prog (keyed K V) X (Option V)}
    (path : Prog.Path (Access.update k f : Access K V X).prog ops (.op (.put k' u) next)) :
    ∃ v, ops = [⟨.get k, some v⟩] ∧ k' = k ∧ u = f v := by
  cases path with
  | @cons _ _ a _ _ rest =>
    cases a with
    | none => cases rest
    | some v =>
      cases rest with
      | nil => exact ⟨v, rfl, rfl, rfl⟩
      | cons rest => cases rest

variable [DecidableEq K]

def answer : (e : (keyed K V).Op) → Memory K V → (keyed K V).Answer e × Memory K V
  | .get k, m => (m.lookup k, m)
  | .put k v, m => ((), m.insert k v)

def effect : Semantics (keyed K V) (Memory K V) := fun m e a m' => answer e m = (a, m')

theorem effect_get {m m' : Memory K V} {k : K} {a : Option V} (h : effect m (.get k) a m') :
    a = m.lookup k ∧ m' = m := by
  obtain ⟨value, same⟩ := Prod.mk.inj h
  exact ⟨value.symm, same.symm⟩

theorem effect_put {m m' : Memory K V} {k : K} {v : V} {a : Unit} (h : effect m (.put k v) a m') :
    m' = m.insert k v := by
  exact (Prod.mk.inj h).2.symm

theorem effect_unique {m m₁ m₂ : Memory K V} {e : (keyed K V).Op} {a : (keyed K V).Answer e}
    (left : effect m e a m₁) (right : effect m e a m₂) : m₁ = m₂ :=
  (Prod.mk.inj (left.symm.trans right)).2

theorem exec_update (k : K) (f : V → V) (m : Memory K V) :
    (Access.update k f : Access K V X).prog.exec answer m =
      match m.lookup k with
      | none => (.ok none, m)
      | some v => (.ok (some (f v)), m.insert k (f v)) := by
  simp only [Access.prog, Prog.exec, answer]
  cases m.lookup k <;> rfl

theorem lookup_insert_cases {m : Memory K V} {k k' : K} {v w : V}
    (stored : (m.insert k v).lookup k' = some w) :
    (k' = k ∧ w = v) ∨ (k' ≠ k ∧ m.lookup k' = some w) := by
  by_cases same : k' = k
  · subst same
    rw [AList.lookup_insert, Option.some.injEq] at stored
    exact Or.inl ⟨rfl, stored.symm⟩
  · rw [AList.lookup_insert_ne same] at stored
    exact Or.inr ⟨same, stored⟩

theorem lookup_insert_of_some {m : Memory K V} {k k' : K} {v : V} (present : m.lookup k ≠ none) :
    (m.insert k' v).lookup k ≠ none := by
  by_cases same : k = k'
  · subst same; simp [AList.lookup_insert]
  · rwa [AList.lookup_insert_ne same]

def Access.alone (a : Access K V X) (m : Memory K V) : Memory K V := (a.prog.exec answer m).2

theorem alone_update (k : K) (f : V → V) (m : Memory K V) :
    (Access.update k f : Access K V X).alone m = match m.lookup k with
      | none => m
      | some v => m.insert k (f v) := by
  cases found : m.lookup k <;>
    simp [Access.alone, Access.prog, Prog.exec, answer, found, commit]

def serial (access : ι → Access K V X) (m : Memory K V) (order : List ι) : Memory K V :=
  order.foldl (fun m i => (access i).alone m) m

theorem serial_append (access : ι → Access K V X) (m : Memory K V) (xs ys : List ι) :
    serial access m (xs ++ ys) = serial access (serial access m xs) ys := List.foldl_append

theorem alone_of_finished {a : Access K V X} (idle : Finished a.prog) (m : Memory K V) :
    a.alone m = m := by
  cases a with
  | refuse x => rfl
  | fetch k => exact absurd rfl (idle _ _)
  | write k v => exact absurd rfl (idle _ _)
  | update k f => exact absurd rfl (idle _ _)

theorem serial_of_idle {access : ι → Access K V X} (m : Memory K V) (order : List ι)
    (idle : ∀ i ∈ order, Finished (access i).prog) : serial access m order = m := by
  induction order generalizing m with
  | nil => rfl
  | cons i order ih =>
    simp only [serial, List.foldl_cons] at ih ⊢
    rw [alone_of_finished (idle i (by simp))]
    exact ih m fun j member => idle j (by simp [member])

abbrev Clients (K V X ι : Type) := Pool (keyed K V) X (Option V) (Memory K V) ι

def start (access : ι → Access K V X) (m : Memory K V) : Clients K V X ι :=
  ⟨m, fun i => (access i).prog⟩

variable [DecidableEq ι]

theorem clients_unique {p q r : Clients K V X ι} {tr : List (Label (keyed K V) ι)}
    (left : Exec (fun _ => effect) p tr q) (right : Exec (fun _ => effect) p tr r) : q = r := by
  refine exec_unique ?_ left right
  intro i s e a s₁ s₂
  exact effect_unique

/-- Every write-back of the run replaces the stored record by the one the
    client would have computed from it. -/
def WritesBackFresh (access : ι → Access K V X) (m : Memory K V)
    (tr : List (Label (keyed K V) ι)) : Prop :=
  ∀ xs ys i k f u w (p : Clients K V X ι), tr = xs ++ (i, ⟨.put k u, ()⟩) :: ys →
    Exec (fun _ => effect) (start access m) xs p → access i = .update k f →
    p.shared.lookup k = some w → u = f w

/-- A client that has read its record and not written it back yet. -/
def Holding (a : Access K V X) (m : Memory K V) (p : Prog (keyed K V) X (Option V)) : Prop :=
  ∃ k f v, a = .update k f ∧ m.lookup k ≠ none ∧ p = commit k (f v)

structure Committed (access : ι → Access K V X) (m : Memory K V) (q : Clients K V X ι)
    (order : List ι) : Prop where
  nodup : order.Nodup
  done : ∀ i ∈ order, Finished (q.task i) ∧ ¬ Finished (access i).prog
  todo : ∀ i, i ∉ order → q.task i = (access i).prog ∨ Holding (access i) q.shared (q.task i)
  memory : q.shared = serial access m order

theorem holding_insert {a : Access K V X} {m : Memory K V} {p : Prog (keyed K V) X (Option V)}
    (held : Holding a m p) (k : K) (v : V) : Holding a (m.insert k v) p := by
  obtain ⟨k', f, u, shape, present, rest⟩ := held
  exact ⟨k', f, u, shape, lookup_insert_of_some present, rest⟩

theorem holding_effect {a : Access K V X} {m m' : Memory K V} {e : (keyed K V).Op}
    {b : (keyed K V).Answer e} {p : Prog (keyed K V) X (Option V)}
    (held : Holding a m p) (did : effect m e b m') : Holding a m' p := by
  cases e with
  | get k => obtain ⟨_, rfl⟩ := effect_get did; exact held
  | put k v => obtain rfl := effect_put did; exact holding_insert held k v

section Steps
variable {access : ι → Access K V X} {m : Memory K V} {q : Clients K V X ι} {order : List ι}

/-- The stepping client finishes: it takes the next place of the serial order. -/
theorem committed_finish (sofar : Committed access m q order) {i : ι} {e : (keyed K V).Op}
    {next : (keyed K V).Answer e → Prog (keyed K V) X (Option V)} {b : (keyed K V).Answer e}
    {m' : Memory K V} (ready : q.task i = .op e next) (did : effect q.shared e b m')
    (open' : ¬ Finished (access i).prog) (last : Finished (next b))
    (same : (access i).alone q.shared = m') :
    Committed access m ⟨m', Function.update q.task i (next b)⟩ (order ++ [i]) := by
  have new : i ∉ order := fun member => (sofar.done i member).1 e next ready
  constructor
  case nodup =>
    exact List.nodup_append.mpr ⟨sofar.nodup, List.nodup_singleton i, by
      intro a ha b hb eq
      rw [List.mem_singleton] at hb
      exact new (hb ▸ eq ▸ ha)⟩
  case done =>
    intro j member
    by_cases mine : j = i
    · subst mine
      simpa using ⟨last, open'⟩
    · simp only [Function.update_of_ne mine]
      rcases List.mem_append.mp member with before | now
      · exact sofar.done j before
      · exact absurd (List.mem_singleton.mp now) mine
  case todo =>
    intro j member
    have mine : j ≠ i := by rintro rfl; simp at member
    simp only [Function.update_of_ne mine]
    rcases sofar.todo j (by intro h; exact member (List.mem_append_left _ h)) with idle | held
    · exact Or.inl idle
    · exact Or.inr (holding_effect held did)
  case memory =>
    rw [serial_append, ← sofar.memory]
    exact same.symm

theorem committed_hold (sofar : Committed access m q order) {i : ι} {k : K} {f : V → V} {v : V}
    (new : i ∉ order) (shape : access i = .update k f) (found : q.shared.lookup k = some v) :
    Committed access m ⟨q.shared, Function.update q.task i (commit k (f v))⟩ order := by
  refine ⟨sofar.nodup, ?_, ?_, sofar.memory⟩
  · intro j member
    have mine : j ≠ i := by rintro rfl; exact new member
    simpa only [Function.update_of_ne mine] using sofar.done j member
  · intro j member
    by_cases mine : j = i
    · subst mine
      exact Or.inr ⟨k, f, v, shape, by simp [found], by simp⟩
    · simpa only [Function.update_of_ne mine] using sofar.todo j member

theorem committed_step (sofar : Committed access m q order) {l : Label (keyed K V) ι}
    {q' : Clients K V X ι} (step : Step (fun _ => effect) q l q')
    (fresh : ∀ k f u w, access l.1 = .update k f → l.2 = ⟨.put k u, ()⟩ →
      q.shared.lookup k = some w → u = f w) :
    ∃ order', Committed access m q' order' := by
  cases step with
  | @act i e next b m' ready did =>
    have new : i ∉ order := fun member => (sofar.done i member).1 e next ready
    rcases sofar.todo i new with idle | ⟨k, f, v, shape, present, held⟩
    · rw [ready] at idle
      cases shape : access i with
      | refuse x => rw [shape] at idle; cases idle
      | fetch k =>
        rw [shape] at idle; cases idle
        obtain ⟨_, rfl⟩ := effect_get did
        exact ⟨_, committed_finish sofar ready did (by rw [shape]; exact fun h => h _ _ rfl)
          (finished_ret _) (by rw [shape]; rfl)⟩
      | write k v =>
        rw [shape] at idle; cases idle
        obtain rfl := effect_put did
        exact ⟨_, committed_finish sofar ready did (by rw [shape]; exact fun h => h _ _ rfl)
          (finished_ret _) (by rw [shape]; rfl)⟩
      | update k f =>
        rw [shape] at idle; cases idle
        obtain ⟨found, rfl⟩ := effect_get did
        cases b with
        | none =>
          exact ⟨_, committed_finish sofar ready did (by rw [shape]; exact fun h => h _ _ rfl)
            (finished_ret _) (by rw [shape, alone_update, ← found])⟩
        | some v => exact ⟨_, committed_hold sofar new shape found.symm⟩
    · rw [ready] at held
      cases held
      obtain rfl := effect_put did
      obtain ⟨w, current⟩ := Option.ne_none_iff_exists'.mp present
      have agree : f v = f w := fresh k f (f v) w shape rfl current
      exact ⟨_, committed_finish sofar ready did (by rw [shape]; exact fun h => h _ _ rfl)
        (finished_ret _) (by rw [shape, alone_update, current, agree])⟩

end Steps

/-- Interleaved clients that write back fresh records are serializable: taken in
    the order in which they finish, one at a time, they leave the same memory. -/
theorem serial_order_exists {access : ι → Access K V X} {m : Memory K V}
    {tr : List (Label (keyed K V) ι)} {q : Clients K V X ι}
    (run : Exec (fun _ => effect) (start access m) tr q) (fresh : WritesBackFresh access m tr) :
    ∃ order, Committed access m q order := by
  induction run with
  | nil => exact ⟨[], List.nodup_nil, by simp, fun i _ => Or.inl rfl, rfl⟩
  | @snoc p q tr l before last ih =>
    obtain ⟨order, sofar⟩ := ih fun xs ys i k f u w p cut =>
      fresh xs (ys ++ [l]) i k f u w p (by simp [cut])
    obtain ⟨i, o⟩ := l
    exact committed_step sofar last fun k f u w shape put found =>
      fresh tr [] i k f u w p (by rw [show o = _ from put]) before shape found

theorem serial_order_of_all {access : ι → Access K V X} {m : Memory K V} {q : Clients K V X ι}
    {order all : List ι} (done : Committed access m q order) (distinct : all.Nodup)
    (every : ∀ i, i ∈ all) (finished : ∀ i, Finished (q.task i)) :
    ∃ whole, whole.Perm all ∧ q.shared = serial access m whole := by
  have idle : ∀ i, i ∉ order → Finished (access i).prog := by
    intro i new
    rcases done.todo i new with same | ⟨k, f, v, _, _, held⟩
    · exact same ▸ finished i
    · exact absurd held (finished i _ _)
  refine ⟨order ++ all.filter (· ∉ order), ?_, ?_⟩
  · refine (List.perm_ext_iff_of_nodup ?_ distinct).mpr fun i => ?_
    · refine List.nodup_append.mpr ⟨done.nodup, distinct.filter _, ?_⟩
      rintro i member j rest rfl
      simp only [List.mem_filter, decide_eq_true_eq] at rest
      exact rest.2 member
    · by_cases member : i ∈ order <;> simp [member, every i]
  · rw [serial_append, ← done.memory]
    refine (serial_of_idle _ _ fun i member => idle i ?_).symm
    simp only [List.mem_filter, decide_eq_true_eq] at member
    exact member.2

end KeyedMemory
