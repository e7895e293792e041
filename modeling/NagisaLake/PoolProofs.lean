import Mathlib.Algebra.BigOperators.Group.List.Lemmas
import Mathlib.Algebra.Order.BigOperators.Group.List
import Mathlib.Algebra.Order.Ring.Int

/-! # Pools of tasks — concurrent operations over one shared state

A pool is a shared state and the tasks in progress.  A task takes one step
at a time: it reads the shared state and the answer of the environment,
and it writes the shared state and itself.  Any task may be the next one,
so a run of the pool is an interleaving of the tasks.

The rules here say what a step of one task does to facts about all of
them: facts about each task (`forall_tasks_set`), what the tasks hold
together (`held_set`), and names no two tasks share (`Apart.set`). -/

namespace Pools

open List Option

variable {S T E K : Type}

/-- The shared state and the tasks in progress. -/
structure Pool (S T : Type) where
  shared : S
  tasks : List T

/-- One more task. -/
def Pool.spawn (p : Pool S T) (t : T) : Pool S T :=
  { p with tasks := p.tasks ++ [t] }

/-- The task at `i` takes one step. -/
def Pool.advance (f : S → T → E → Option (S × T)) (p : Pool S T) (i : Nat)
    (e : E) : Option (Pool S T) :=
  (p.tasks[i]?).bind fun t =>
    (f p.shared t e).map fun r => ⟨r.1, p.tasks.set i r.2⟩

variable {i : Nat} {ts : List T} {t t' : T}

theorem Pool.advance_eq_some {f : S → T → E → Option (S × T)} {p q : Pool S T}
    {e : E} (h : p.advance f i e = some q) :
    ∃ t s t', p.tasks[i]? = some t ∧ f p.shared t e = some (s, t') ∧ q = ⟨s, p.tasks.set i t'⟩ := by
  obtain ⟨t, ht, h⟩ := bind_eq_some_iff.mp h
  obtain ⟨r, hr, rfl⟩ := map_eq_some_iff.mp h
  exact ⟨t, r.1, r.2, ht, hr, rfl⟩

/-- The task that was spawned last. -/
theorem Pool.advance_last (f : S → T → E → Option (S × T)) (s : S) (ts : List T) (t : T) (e : E) :
    (Pool.mk s (ts ++ [t])).advance f ts.length e = (f s t e).map fun r => ⟨r.1, ts ++ [r.2]⟩ := by
  simp [Pool.advance]

/-! ## Facts about every task -/

variable {P : T → Prop} {w : T → Int} {name : T → Option K}

/-- A fact about every task survives the step of one that keeps it. -/
theorem forall_tasks_set (hall : ∀ u ∈ ts, P u) (ht : P t) : ∀ u ∈ ts.set i t, P u :=
  fun u hu => (mem_or_eq_of_mem_set hu).elim (hall u) fun h => h ▸ ht

theorem forall_tasks_spawn (hall : ∀ u ∈ ts, P u) (ht : P t) : ∀ u ∈ ts ++ [t], P u := by
  intro u hu
  rcases mem_append.mp hu with hu | hu
  · exact hall u hu
  · rw [mem_singleton.mp hu]
    exact ht

/-- There is still such a task after the step of one that stays such. -/
theorem exists_tasks_set (ht : ts[i]? = some t) (hex : ∃ u ∈ ts, P u) (hkeep : P t → P t') :
    ∃ u ∈ ts.set i t', P u := by
  obtain ⟨u, hu, hPu⟩ := hex
  obtain ⟨j, hj⟩ := mem_iff_getElem?.mp hu
  by_cases hij : i = j
  · cases ht.symm.trans (hij ▸ hj)
    obtain ⟨hi, -⟩ := List.getElem?_eq_some_iff.mp ht
    exact ⟨t', mem_set hi t', hkeep hPu⟩
  refine ⟨u, mem_of_getElem? (i := j) ?_, hPu⟩
  rw [getElem?_set_ne hij]
  exact hj

/-! ## Tasks by their number -/

theorem set_cases {j : Nat} {u : T} (h : (ts.set i t)[j]? = some u) :
    (j = i ∧ u = t) ∨ (j ≠ i ∧ ts[j]? = some u) := by
  rw [getElem?_set] at h
  split at h
  · next hij =>
    split at h
    · exact .inl ⟨hij.symm, (some.inj h).symm⟩
    · cases h
  · next hij => exact .inr ⟨Ne.symm hij, h⟩

theorem append_cases {j : Nat} {u : T} (h : (ts ++ [t])[j]? = some u) :
    ts[j]? = some u ∨ (j = ts.length ∧ u = t) := by
  rw [getElem?_append] at h
  split at h
  · exact .inl h
  next hj =>
  obtain ⟨hone, hget⟩ := List.getElem?_eq_some_iff.mp h
  rw [length_singleton] at hone
  rw [getElem_singleton] at hget
  exact .inr ⟨by omega, hget.symm⟩

/-- A fact about each task and its number, when one task goes on and leaves the others theirs. -/
theorem forall_numbered_set {P Q : Nat → T → Prop} (hall : ∀ j u, ts[j]? = some u → P j u)
    (hothers : ∀ j u, j ≠ i → P j u → Q j u) (hown : Q i t) :
    ∀ j u, (ts.set i t)[j]? = some u → Q j u := by
  intro j u hu
  rcases set_cases hu with ⟨rfl, rfl⟩ | ⟨hij, hold⟩
  · exact hown
  · exact hothers j u hij (hall j u hold)

theorem forall_numbered_spawn {P : Nat → T → Prop}
    (hall : ∀ j u, ts[j]? = some u → P j u) (hnew : P ts.length t) :
    ∀ j u, (ts ++ [t])[j]? = some u → P j u := by
  intro j u hu
  rcases append_cases hu with hold | ⟨rfl, rfl⟩
  · exact hall j u hold
  · exact hnew

/-- A fact about every number no task has yet. -/
theorem forall_idle_set {P Q : Nat → Prop} (hi : ts[i]? = some t)
    (hall : ∀ j, ts[j]? = none → P j) (hothers : ∀ j, j ≠ i → P j → Q j) :
    ∀ j, (ts.set i t')[j]? = none → Q j := by
  intro j hj
  rw [getElem?_eq_none_iff, length_set] at hj
  have hij : j ≠ i := by
    rintro rfl
    exact Nat.not_lt.mpr hj (List.getElem?_eq_some_iff.mp hi).1
  exact hothers j hij (hall j (getElem?_eq_none_iff.mpr hj))

theorem forall_idle_spawn {P : Nat → Prop} (hall : ∀ j, ts[j]? = none → P j) :
    ∀ j, (ts ++ [t])[j]? = none → P j := by
  intro j hj
  rw [getElem?_eq_none_iff, length_append] at hj
  exact hall j (getElem?_eq_none_iff.mpr (by omega))

/-! ## What the tasks hold together -/

/-- The sum of what the tasks hold. -/
def held (w : T → Int) (ts : List T) : Int := (ts.map w).sum

theorem held_spawn (w : T → Int) (ts : List T) (t : T) : held w (ts ++ [t]) = held w ts + w t := by
  simp [held]

/-- A step changes the sum by what it changes of its own task. -/
theorem held_set (w : T → Int) (t' : T) (h : ts[i]? = some t) :
    held w (ts.set i t') + w t = held w ts + w t' := by
  induction ts generalizing i with
  | nil => cases h
  | cons u us ih =>
    cases i with
    | zero =>
      obtain rfl : u = t := some.inj h
      simp only [held, set_cons_zero, map_cons, sum_cons]
      omega
    | succ i =>
      have hus := ih (i := i) h
      simp only [held, set_cons_succ, map_cons, sum_cons] at hus ⊢
      omega

theorem held_nonneg (hw : ∀ t ∈ ts, 0 ≤ w t) : 0 ≤ held w ts := by
  refine sum_nonneg fun x hx => ?_
  obtain ⟨t, ht, rfl⟩ := mem_map.mp hx
  exact hw t ht

/-- No task holds more than all of them. -/
theorem le_held (hw : ∀ t ∈ ts, 0 ≤ w t) (ht : t ∈ ts) : w t ≤ held w ts := by
  refine single_le_sum ?_ (w t) (mem_map_of_mem ht)
  intro x hx
  obtain ⟨u, hu, rfl⟩ := mem_map.mp hx
  exact hw u hu

theorem held_eq_zero (hw : ∀ t ∈ ts, w t = 0) : held w ts = 0 := by
  refine sum_eq_zero fun x hx => ?_
  obtain ⟨t, ht, rfl⟩ := mem_map.mp hx
  exact hw t ht

/-! ## Names no two tasks share -/

/-- The names the tasks own are distinct. -/
def Apart (name : T → Option K) (ts : List T) : Prop :=
  ∀ (i j : Nat) s t x, i ≠ j → ts[i]? = some s → ts[j]? = some t → name s = some x → name t ≠ some x

theorem apart_nil (name : T → Option K) : Apart name ([] : List T) := by
  intro i j s t x _ hs
  cases hs

/-- A step may give a name up, not take one. -/
theorem Apart.set (h : Apart name ts) (ht : ts[i]? = some t)
    (hname : ∀ x, name t' = some x → name t = some x) :
    Apart name (ts.set i t') := by
  have hback : ∀ (j : Nat) (u : T) (x : K), (ts.set i t')[j]? = some u →
      name u = some x → ∃ v, ts[j]? = some v ∧ name v = some x := by
    intro j u x hu hx
    rcases set_cases hu with ⟨rfl, rfl⟩ | ⟨-, hold⟩
    · exact ⟨t, ht, hname x hx⟩
    · exact ⟨u, hold, hx⟩
  intro a b s u x hab hs hu hxs hxu
  obtain ⟨s', hs', hxs'⟩ := hback a s x hs hxs
  obtain ⟨u', hu', hxu'⟩ := hback b u x hu hxu
  exact h a b s' u' x hab hs' hu' hxs' hxu'

/-- A new task may bring a name nobody owns. -/
theorem Apart.spawn (h : Apart name ts) (hnew : ∀ u ∈ ts, ∀ x, name t = some x → name u ≠ some x) :
    Apart name (ts ++ [t]) := by
  intro a b s u x hab hs hu hxs hxu
  rcases append_cases hs with hs' | ⟨rfl, rfl⟩
  · rcases append_cases hu with hu' | ⟨rfl, rfl⟩
    · exact h a b s u x hab hs' hu' hxs hxu
    · exact hnew s (mem_of_getElem? hs') x hxu hxs
  rcases append_cases hu with hu' | ⟨rfl, rfl⟩
  · exact hnew u (mem_of_getElem? hu') x hxs hxu
  · exact hab rfl

/-- A step may take a name nobody owns. -/
theorem Apart.take (h : Apart name ts) (hnew : ∀ u ∈ ts, ∀ x, name t' = some x → name u ≠ some x) :
    Apart name (ts.set i t') := by
  intro a b s u x hab hs hu hxs hxu
  rcases set_cases hs with ⟨rfl, rfl⟩ | ⟨-, hs'⟩
  · rcases set_cases hu with ⟨rfl, rfl⟩ | ⟨-, hu'⟩
    · exact hab rfl
    · exact hnew u (mem_of_getElem? hu') x hxs hxu
  rcases set_cases hu with ⟨rfl, rfl⟩ | ⟨-, hu'⟩
  · exact hnew s (mem_of_getElem? hs') x hxu hxs
  · exact h a b s u x hab hs' hu' hxs hxu

/-! ## What the tasks have brought -/

/-- A step that brings nothing new leaves what has been brought. -/
theorem filterMap_set_of_eq {f : T → Option K} (ht : ts[i]? = some t) (hf : f t' = f t) :
    (ts.set i t').filterMap f = ts.filterMap f := by
  induction ts generalizing i with
  | nil => rfl
  | cons u us ih =>
    cases i with
    | zero =>
      obtain rfl : u = t := some.inj ht
      rw [set_cons_zero, filterMap_cons, filterMap_cons, hf]
    | succ i =>
      rw [set_cons_succ, filterMap_cons, filterMap_cons, ih (i := i) ht]

/-- A step that brings one thing adds it to what has been brought. -/
theorem filterMap_set_of_new {f : T → Option K} {x : K} (ht : ts[i]? = some t)
    (hold : f t = none) (hnew : f t' = some x) :
    ((ts.set i t').filterMap f).Perm (x :: ts.filterMap f) := by
  induction ts generalizing i with
  | nil => cases ht
  | cons u us ih =>
    cases i with
    | zero =>
      obtain rfl : u = t := some.inj ht
      rw [set_cons_zero, filterMap_cons_some hnew, filterMap_cons_none hold]
    | succ i =>
      have hus := ih (i := i) ht
      rw [set_cons_succ]
      cases hu : f u with
      | none =>
        rw [filterMap_cons_none hu, filterMap_cons_none hu]
        exact hus
      | some y =>
        rw [filterMap_cons_some hu, filterMap_cons_some hu]
        exact (hus.cons y).trans (List.Perm.swap x y _)

/-! ## Counting tasks -/

theorem countP_set (p : T → Bool) (h : ts[i]? = some t) (t' : T) :
    (ts.set i t').countP p + (if p t then 1 else 0) = ts.countP p + (if p t' then 1 else 0) := by
  induction ts generalizing i with
  | nil => cases h
  | cons u ts ih =>
    cases i with
    | zero =>
      obtain rfl : u = t := some.inj h
      rw [set_cons_zero, countP_cons, countP_cons]
      omega
    | succ i =>
      have hrest := ih h
      rw [set_cons_succ, countP_cons, countP_cons]
      omega

theorem countP_eraseIdx (p : T → Bool) (h : ts[i]? = some t) :
    (ts.eraseIdx i).countP p + (if p t then 1 else 0) = ts.countP p := by
  obtain ⟨hi, rfl⟩ := List.getElem?_eq_some_iff.mp h
  rw [← (getElem_cons_eraseIdx_perm hi).countP_eq p, countP_cons]

end Pools
