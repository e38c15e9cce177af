import RusAuthExample.KeyedMemory

/-!
Clients of a keyed memory that name different keys do not see each other. A run
can be thinned out to the steps of the clients that name one key: what is left
is a run, it ends with the same record under that key, and those clients are
where they were. Two runs in which they take their turns in the same order hence
agree on the key.
-/
namespace KeyedMemory
open OperationPrograms InterleavedRuns

variable {K V X ι : Type}

def KeyedOp.key : KeyedOp K V → K
  | .get k => k
  | .put k _ => k

def Access.key? : Access K V X → Option K
  | .refuse _ => none
  | .fetch k => some k
  | .write k _ => some k
  | .update k _ => some k

theorem commit_uses {P : KeyedOp K V → Prop} {k : K} {v : V} (may : P (.put k v)) :
    (commit k v : Prog (keyed K V) X (Option V)).Uses P := ⟨may, fun _ => trivial⟩

theorem access_uses (a : Access K V X) : a.prog.Uses fun (e : KeyedOp K V) => a.key? = some e.key := by
  cases a with
  | refuse x => trivial
  | fetch k => exact ⟨rfl, fun _ => trivial⟩
  | write k v => exact commit_uses rfl
  | update k f =>
    refine ⟨rfl, fun (found : Option V) => ?_⟩
    cases found with
    | none => trivial
    | some v => exact commit_uses rfl

/-- The clients marked `mine` have only operations under the key left to do, the
    others have none. -/
structure Apart (k : K) (mine : ι → Bool) (p : Clients K V X ι) : Prop where
  inside : ∀ i, mine i = true → (p.task i).Uses fun (e : KeyedOp K V) => e.key = k
  outside : ∀ i, mine i = false → (p.task i).Uses fun (e : KeyedOp K V) => e.key ≠ k

theorem apart_start {access : ι → Access K V X} {mine : ι → Bool} {k : K}
    (marks : ∀ i, mine i = true ↔ (access i).key? = some k) (m : Memory K V) :
    Apart k mine (start access m) where
  inside i named := by
    refine Prog.uses_weaken (access_uses (access i)) fun e key => ?_
    exact Option.some.inj (key.symm.trans ((marks i).mp named))
  outside i other := by
    refine Prog.uses_weaken (access_uses (access i)) fun e key same => ?_
    have named : mine i = true := (marks i).mpr (by rw [key, same])
    rw [named] at other
    cases other

variable [DecidableEq K]

theorem effect_other {m m' : Memory K V} {e : KeyedOp K V} {a : (keyed K V).Answer e} {k : K}
    (did : effect m e a m') (other : e.key ≠ k) : m'.lookup k = m.lookup k := by
  cases e with
  | get k' => rw [(effect_get did).2]
  | put k' v =>
    rw [effect_put did]
    exact AList.lookup_insert_ne other.symm

/-- Under one key an operation depends on the record there, and on nothing else. -/
theorem effect_local {m m' n : Memory K V} {e : KeyedOp K V} {a : (keyed K V).Answer e}
    (did : effect m e a m') (same : m.lookup e.key = n.lookup e.key) :
    ∃ n', effect n e a n' ∧ m'.lookup e.key = n'.lookup e.key := by
  cases e with
  | get k =>
    obtain ⟨rfl, rfl⟩ := effect_get did
    refine ⟨n, ?_, same⟩
    rw [show m'.lookup k = n.lookup k from same]
    rfl
  | put k v =>
    obtain rfl := effect_put did
    exact ⟨n.insert k v, rfl, by rw [KeyedOp.key, AList.lookup_insert, AList.lookup_insert]⟩

theorem effect_answer {m m' n n' : Memory K V} {e : KeyedOp K V} {a b : (keyed K V).Answer e}
    (left : effect m e a m') (right : effect n e b n') (same : m.lookup e.key = n.lookup e.key) :
    a = b := by
  cases e with
  | get k =>
    rw [(effect_get left).1, (effect_get right).1]
    exact same
  | put k v => rfl

structure AgreeAt (k : K) (mine : ι → Bool) (p q : Clients K V X ι) : Prop where
  record : p.shared.lookup k = q.shared.lookup k
  clients : ∀ i, mine i = true → p.task i = q.task i

variable [DecidableEq ι] {k : K} {mine : ι → Bool} {p q r : Clients K V X ι}
  {l : Label (keyed K V) ι} {tr : List (Label (keyed K V) ι)}

section Steps

theorem apart_step (apart : Apart k mine p) (step : Step (fun _ => effect) p l q) :
    Apart k mine q := by
  cases step with
  | @act i e next a m' ready did =>
    constructor
    · intro j named
      by_cases mineJ : j = i
      · subst mineJ
        have uses := apart.inside j named
        rw [ready] at uses
        simpa using uses.2 a
      · simpa [Function.update_of_ne mineJ] using apart.inside j named
    · intro j other
      by_cases mineJ : j = i
      · subst mineJ
        have uses := apart.outside j other
        rw [ready] at uses
        simpa using uses.2 a
      · simpa [Function.update_of_ne mineJ] using apart.outside j other

theorem unmatched_step (apart : Apart k mine p) (step : Step (fun _ => effect) p l q)
    (other : mine l.1 = false) (agree : AgreeAt k mine p r) : AgreeAt k mine q r := by
  cases step with
  | @act i e next a m' ready did =>
    have uses := apart.outside i other
    rw [ready] at uses
    refine ⟨(effect_other did uses.1).trans agree.record, fun j named => ?_⟩
    have different : j ≠ i := by
      intro same
      rw [same, other] at named
      cases named
    simpa [Function.update_of_ne different] using agree.clients j named

theorem matched_step (apart : Apart k mine p) (step : Step (fun _ => effect) p l q)
    (named : mine l.1 = true) (agree : AgreeAt k mine p r) :
    ∃ r', Step (fun _ => effect) r l r' ∧ AgreeAt k mine q r' := by
  cases step with
  | @act i e next a m' ready did =>
    have uses := apart.inside i named
    rw [ready] at uses
    obtain rfl : e.key = k := uses.1
    obtain ⟨n', did', record⟩ := effect_local did agree.record
    have ready' : r.task i = .op e next := (agree.clients i named).symm.trans ready
    refine ⟨_, .act ready' did', record, fun j namedJ => ?_⟩
    by_cases same : j = i
    · subst same
      simp
    · simpa [Function.update_of_ne same] using agree.clients j namedJ

/-- Where two pools agree, one client has only one step to take. -/
theorem common_step {l' : Label (keyed K V) ι} {r' : Clients K V X ι} (apart : Apart k mine p)
    (agree : AgreeAt k mine p r) (left : Step (fun _ => effect) p l q)
    (right : Step (fun _ => effect) r l' r') (same : l.1 = l'.1) (named : mine l.1 = true) :
    l = l' ∧ AgreeAt k mine q r' := by
  obtain ⟨r'', matched, after⟩ := matched_step apart left named agree
  have label : l = l' := by
    cases matched with
    | @act i e next a n ready did =>
      cases right with
      | @act j e' next' a' n' ready' did' =>
        obtain rfl : i = j := same
        rw [ready] at ready'
        cases ready'
        rw [effect_answer did did' rfl]
  subst label
  have ends : r'' = r' := clients_unique (.snoc .nil matched) (.snoc .nil right)
  exact ⟨rfl, ends ▸ after⟩

end Steps

def Mine (mine : ι → Bool) (tr : List (Label (keyed K V) ι)) : List (Label (keyed K V) ι) :=
  tr.filter fun l => mine l.1

section Runs

theorem apart_exec (apart : Apart k mine p) (run : Exec (fun _ => effect) p tr q) :
    Apart k mine q := by
  induction run with
  | nil => exact apart
  | snoc before last ih => exact apart_step ih last

theorem exec_project (apart : Apart k mine p) (run : Exec (fun _ => effect) p tr q)
    (agree : AgreeAt k mine p r) :
    ∃ r', Exec (fun _ => effect) r (Mine mine tr) r' ∧ AgreeAt k mine q r' := by
  induction run with
  | nil => exact ⟨r, .nil, agree⟩
  | @snoc m q tr l before last ih =>
    obtain ⟨r', sofar, agrees⟩ := ih
    have apart' := apart_exec apart before
    cases named : mine l.1 with
    | true =>
      obtain ⟨r'', step, after⟩ := matched_step apart' last named agrees
      refine ⟨r'', ?_, after⟩
      rw [Mine, List.filter_append, List.filter_singleton, named]
      exact sofar.snoc step
    | false =>
      refine ⟨r', ?_, unmatched_step apart' last named agrees⟩
      rw [Mine, List.filter_append, List.filter_singleton, named, cond_false, List.append_nil]
      exact sofar

/-- With only the marked clients running, their turns fix everything they do. -/
theorem exec_same_turns {r' : Clients K V X ι} {xs ys : List (Label (keyed K V) ι)}
    (apart : Apart k mine p) (agree : AgreeAt k mine p r) (left : Exec (fun _ => effect) p xs q)
    (right : Exec (fun _ => effect) r ys r') (all : ∀ l ∈ xs, mine l.1 = true)
    (turns : xs.map Prod.fst = ys.map Prod.fst) : xs = ys ∧ AgreeAt k mine q r' := by
  induction left generalizing ys r' with
  | nil =>
    obtain rfl := List.map_eq_nil_iff.mp turns.symm
    obtain rfl := clients_unique right .nil
    exact ⟨rfl, agree⟩
  | @snoc m q xs l before last ih =>
    rw [List.map_append, List.map_singleton] at turns
    obtain ⟨ys, l', rfl⟩ : ∃ zs l', ys = zs ++ [l'] := by
      rcases List.eq_nil_or_concat ys with rfl | ⟨zs, l', rfl⟩
      · simp at turns
      · exact ⟨zs, l', List.concat_eq_append⟩
    rw [List.map_append, List.map_singleton] at turns
    obtain ⟨earlier, final⟩ := List.append_inj' turns rfl
    obtain ⟨m', before', rest⟩ := exec_split right
    obtain ⟨rfl, agrees⟩ := ih before' (fun l member => all l (List.mem_append_left _ member)) earlier
    obtain ⟨rfl, after⟩ := common_step (apart_exec apart before) agrees last (exec_single rest)
      (List.singleton_inj.mp final) (all l (by simp))
    exact ⟨rfl, after⟩

theorem runs_agree {r' : Clients K V X ι} {tr' : List (Label (keyed K V) ι)}
    (apart : Apart k mine p) (apart' : Apart k mine r) (agree : AgreeAt k mine p r)
    (left : Exec (fun _ => effect) p tr q) (right : Exec (fun _ => effect) r tr' r')
    (turns : (Mine mine tr).map Prod.fst = (Mine mine tr').map Prod.fst) :
    Mine mine tr = Mine mine tr' ∧ AgreeAt k mine q r' := by
  obtain ⟨q₁, thinned, same⟩ := exec_project apart left ⟨rfl, fun _ _ => rfl⟩
  obtain ⟨r₁, thinned', same'⟩ := exec_project apart' right ⟨rfl, fun _ _ => rfl⟩
  have all : ∀ l ∈ Mine mine tr, mine l.1 = true := fun l member => (List.mem_filter.mp member).2
  obtain ⟨steps, ends⟩ := exec_same_turns apart agree thinned thinned' all turns
  refine ⟨steps, ?_, fun i named => ?_⟩
  · rw [same.record, ends.record, same'.record]
  · rw [same.clients i named, ends.clients i named, same'.clients i named]

end Runs
end KeyedMemory
