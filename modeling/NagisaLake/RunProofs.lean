import Mathlib.Data.List.Basic

/-! # Runs of a transition system — the induction every safety claim uses

A system is a partial step function: `step s a` is the state after the
action `a`, or `none` when `a` is not enabled in `s`.  Whatever the
environment may choose (a reply, a clock value, which task moves next) is
part of the action, so a schedule is a list of actions and a claim about
every interleaving is a claim about every list.

The rules packaged here: an invariant kept by every step holds along every
run (`inv_run`), an invariant kept by the steps that meet a side condition
holds along the runs all of whose steps meet it (`inv_run_admitted`), and
such a side condition is exact (`admitted_of_along`, `along_iff_admitted`). -/

namespace Runs

open Option

variable {S A : Type}

/-- Run a schedule; `none` as soon as one of its actions is not enabled. -/
def run (step : S → A → Option S) : S → List A → Option S
  | s, [] => some s
  | s, a :: as => (step s a).bind fun t => run step t as

/-- Every action of the schedule meets `ok` in the state it is taken in. -/
def Admitted (step : S → A → Option S) (ok : S → A → Prop) : S → List A → Prop
  | _, [] => True
  | s, a :: as => ok s a ∧ ∀ t, step s a = some t → Admitted step ok t as

/-- The property holds in every state the schedule passes through, the first
    and the last included. -/
def Along (step : S → A → Option S) (P : S → Prop) : S → List A → Prop
  | s, [] => P s
  | s, a :: as => P s ∧ ∀ t, step s a = some t → Along step P t as

/-- A state some schedule leads to. -/
def Reachable (step : S → A → Option S) (s₀ s : S) : Prop :=
  ∃ as, run step s₀ as = some s

/-- Play a schedule, passing over the actions that are not enabled. -/
def play (step : S → A → Option S) (s : S) (as : List A) : S :=
  as.foldl (fun t a => (step t a).getD t) s

variable {step : S → A → Option S}

/-- A step that is enabled under a condition. -/
theorem of_guard {p : Prop} [Decidable p] {s t : S}
    (h : (if p then some s else none) = some t) : p ∧ s = t := by
  rwa [ite_none_right_eq_some, some.injEq] at h

theorem of_guard_not {p : Prop} [Decidable p] {s t : S}
    (h : (if p then none else some s) = some t) : ¬ p ∧ s = t := by
  rwa [ite_none_left_eq_some, some.injEq] at h

variable {s t : S} {a : A} {as : List A} {ok : S → A → Prop} {I P : S → Prop}

theorem run_cons_eq_some {u : S} : run step s (a :: as) = some u
      ↔ ∃ t, step s a = some t ∧ run step t as = some u := by
  exact bind_eq_some_iff

/-- A schedule may be cut anywhere. -/
theorem run_append (as bs : List A) (s : S) :
    run step s (as ++ bs) = (run step s as).bind fun t => run step t bs := by
  induction as generalizing s with
  | nil => rfl
  | cons a as ih =>
    show (step s a).bind (fun t => run step t (as ++ bs))
      = ((step s a).bind fun t => run step t as).bind fun t => run step t bs
    cases step s a with
    | none => rfl
    | some t => exact ih t

theorem run_append_of_eq {bs : List A} (h : run step s as = some t) :
    run step s (as ++ bs) = run step t bs := by
  rw [run_append, h]
  rfl

/-- One more action at the end of a schedule. -/
theorem run_concat (h : run step s as = some t) : run step s (as ++ [a]) = step t a := by
  rw [run_append_of_eq h]
  show (step t a).bind some = step t a
  cases step t a <;> rfl

theorem Reachable.refl (s : S) : Reachable step s s := ⟨[], rfl⟩

theorem Reachable.tail {s₀ : S} (h : Reachable step s₀ s) (ha : step s a = some t) :
    Reachable step s₀ t := by
  obtain ⟨as, has⟩ := h
  exact ⟨as ++ [a], by rw [run_concat has]; exact ha⟩

theorem Reachable.trans {s₀ : S} (h₁ : Reachable step s₀ s) (h₂ : Reachable step s t) :
    Reachable step s₀ t := by
  obtain ⟨as, has⟩ := h₁
  obtain ⟨bs, hbs⟩ := h₂
  exact ⟨as ++ bs, by rw [run_append_of_eq has]; exact hbs⟩

/-! ## The invariant rules -/

/-- **INVARIANTS UNDER A SIDE CONDITION**: what every admitted step keeps holds
    at the end of every admitted run. -/
theorem inv_run_admitted (hstep : ∀ s a t, I s → ok s a → step s a = some t → I t) {u : S}
    (hI : I s) (hok : Admitted step ok s as) (hrun : run step s as = some u) : I u := by
  induction as generalizing s with
  | nil => exact some.inj hrun ▸ hI
  | cons a as ih =>
    obtain ⟨t, ht, hrun'⟩ := run_cons_eq_some.mp hrun
    exact ih (hstep s a t hI hok.1 ht) (hok.2 t ht) hrun'

theorem admitted_true (as : List A) (s : S) : Admitted step (fun _ _ => True) s as := by
  induction as generalizing s with
  | nil => exact trivial
  | cons a as ih => exact ⟨trivial, fun t _ => ih t⟩

section

variable (hstep : ∀ s a t, I s → step s a = some t → I t)
include hstep

/-- What every step keeps holds however a schedule is played. -/
theorem inv_play (as : List A) : ∀ s, I s → I (play step s as) := by
  induction as with
  | nil => exact fun _ => id
  | cons a as ih =>
    intro s hI
    have hnext : I ((step s a).getD s) := by
      cases ht : step s a with
      | none => exact hI
      | some t => exact hstep s a t hI ht
    exact ih _ hnext

/-- **INVARIANTS**: what every step keeps holds at the end of every run. -/
theorem inv_run {u : S} (hI : I s) (hrun : run step s as = some u) : I u :=
  inv_run_admitted (fun s a t h _ ht => hstep s a t h ht) hI (admitted_true as s) hrun

theorem inv_reachable
    {s₀ : S} (hI : I s₀) (h : Reachable step s₀ s) : I s := by
  obtain ⟨as, has⟩ := h
  exact inv_run hstep hI has

end

/-- **INVARIANTS ON HISTORIES**: what every step keeps, of the state and of the actions up to it,
    holds at the end of every run. -/
theorem inv_run_history {I : List A → S → Prop}
    (hstep : ∀ as s a t, I as s → step s a = some t → I (as ++ [a]) t) {u : S}
    (hI : I [] s) (hrun : run step s as = some u) : I as u := by
  suffices h : ∀ (as before : List A) (s : S), I before s → run step s as = some u →
      I (before ++ as) u from h as [] s hI hrun
  intro as
  induction as with
  | nil =>
    intro before s hI hrun
    cases hrun
    rwa [List.append_nil]
  | cons a as ih =>
    intro before s hI hrun
    obtain ⟨t, ht, hrun'⟩ := run_cons_eq_some.mp hrun
    rw [← List.singleton_append, ← List.append_assoc]
    exact ih (before ++ [a]) t (hstep before s a t hI ht) hrun'

theorem Admitted.cons (hok : ok s a) (hs : step s a = some t) (h : Admitted step ok t as) :
    Admitted step ok s (a :: as) := by
  refine ⟨hok, fun u hu => ?_⟩
  cases hs.symm.trans hu
  exact h

/-- Run a schedule and test each of its actions. -/
def admits (step : S → A → Option S) (test : S → A → Bool) : S → List A → Bool
  | _, [] => true
  | s, a :: as => test s a && (step s a).all fun t => admits step test t as

/-- A schedule that passes a sufficient test is admitted. -/
theorem admitted_of_admits (test : S → A → Bool) (htest : ∀ s a, test s a = true → ok s a) :
    ∀ (as : List A) (s : S), admits step test s as = true → Admitted step ok s as := by
  intro as
  induction as with
  | nil => exact fun _ _ => trivial
  | cons a as ih =>
    intro s h
    obtain ⟨hhead, htail⟩ := Bool.and_eq_true_iff.mp h
    refine ⟨htest s a hhead, ?_⟩
    intro t ht
    rw [ht] at htail
    exact ih t htail

/-- What every admitted step keeps holds all along every admitted run. -/
theorem inv_along_admitted (hstep : ∀ s a t, I s → ok s a → step s a = some t → I t) :
    ∀ (as : List A) (s : S), I s → Admitted step ok s as → Along step I s as := by
  intro as
  induction as with
  | nil => intro s hI _; exact hI
  | cons a as ih =>
    intro s hI hok
    exact ⟨hI, fun t ht => ih t (hstep s a t hI hok.1 ht) (hok.2 t ht)⟩

theorem Along.cons (h : P s) (hs : step s a = some t) (hrest : Along step P t as) :
    Along step P s (a :: as) := by
  refine ⟨h, fun u hu => ?_⟩
  cases hs.symm.trans hu
  exact hrest

/-- What holds all along a run holds at its start. -/
theorem Along.head (h : Along step P s as) : P s := by
  cases as with
  | nil => exact h
  | cons a as => exact h.1

/-- What holds all along a run holds at its end. -/
theorem Along.last (h : Along step P s as) (hrun : run step s as = some t) : P t := by
  induction as generalizing s with
  | nil =>
    exact some.inj hrun ▸ h
  | cons a as ih =>
    obtain ⟨u, hu, hrun'⟩ := run_cons_eq_some.mp hrun
    exact ih (h.2 u hu) hrun'

/-- What holds all along a run may be weakened. -/
theorem Along.mono {Q : S → Prop} (hPQ : ∀ s, P s → Q s) :
    ∀ (as : List A) (s : S), Along step P s as → Along step Q s as := by
  intro as
  induction as with
  | nil => intro s h; exact hPQ s h
  | cons a as ih =>
    intro s h
    exact ⟨hPQ s h.1, fun t ht => ih t (h.2 t ht)⟩

/-! ## The converse of a side condition -/

theorem along_true (as : List A) (s : S) : Along step (fun _ => True) s as := by
  induction as generalizing s with
  | nil => exact trivial
  | cons a as ih => exact ⟨trivial, fun t _ => ih t⟩

/-- Every action of a run in `P` leads into `P`. -/
theorem Along.admitted (h : Along step P s as) :
    Admitted step (fun s a => ∀ t, step s a = some t → P t) s as := by
  induction as generalizing s with
  | nil => exact trivial
  | cons a as ih => exact ⟨fun t ht => (h.2 t ht).head, fun t ht => ih (h.2 t ht)⟩

/-- What every step into `P` keeps holds at the end of a run in `P`. -/
theorem inv_run_along (hstep : ∀ s a t, I s → P t → step s a = some t → I t) {u : S}
    (hI : I s) (h : Along step P s as) (hrun : run step s as = some u) : I u :=
  inv_run_admitted (fun s a t hI hP ht => hstep s a t hI (hP t ht) ht) hI h.admitted hrun

/-- **THE CONVERSE OF A SIDE CONDITION**: when a step that misses the condition dooms the run, as
    long as it stays in `P`, a run in `P` that ends in no doomed state met it throughout. -/
theorem admitted_of_along {D : S → Prop} (hstep : ∀ s a t, I s → P t → step s a = some t → I t)
    (hdoom : ∀ s a t, I s → ¬ ok s a → P t → step s a = some t → D t)
    (hkeep : ∀ s a t, I s → D s → P t → step s a = some t → D t) :
    ∀ (as : List A) (s u : S), I s → Along step P s as →
      run step s as = some u → ¬ D u → Admitted step ok s as := by
  intro as
  induction as with
  | nil => exact fun _ _ _ _ _ _ => trivial
  | cons a as ih =>
    intro s u hI halong hrun hD
    obtain ⟨t, ht, hrun'⟩ := run_cons_eq_some.mp hrun
    have hrest := halong.2 t ht
    have hP := Along.head hrest
    have hIt := hstep s a t hI hP ht
    refine ⟨?_, fun t' ht' => ?_⟩
    · by_contra hok
      refine hD (inv_run_along (I := fun s => I s ∧ D s) ?_
        ⟨hIt, hdoom s a t hI hok hP ht⟩ hrest hrun').2
      intro s a t h hP ht
      exact ⟨hstep s a t h.1 hP ht, hkeep s a t h.1 h.2 hP ht⟩
    · cases ht.symm.trans ht'
      exact ih t u hIt hrest hrun' hD

/-- The same, when nothing has to last. -/
theorem admitted_of_not_doomed {D : S → Prop} (hstep : ∀ s a t, I s → step s a = some t → I t)
    (hdoom : ∀ s a t, I s → ¬ ok s a → step s a = some t → D t)
    (hkeep : ∀ s a t, D s → step s a = some t → D t) :
    ∀ (as : List A) (s u : S), I s → run step s as = some u → ¬ D u → Admitted step ok s as := by
  intro as s u hI hrun hD
  refine admitted_of_along (I := I) (P := fun _ => True) (D := D) ?_ ?_ ?_
    as s u hI (along_true as s) hrun hD
  · exact fun s a t h _ ht => hstep s a t h ht
  · exact fun s a t h hok _ ht => hdoom s a t h hok ht
  · exact fun s a t _ hD _ ht => hkeep s a t hD ht

/-- **AN EXACT SIDE CONDITION**: when the admitted steps keep an invariant that
    implies `P`, and every other step lands in a state without `P`, then `P`
    holds all along a run if and only if the run is admitted. -/
theorem along_iff_admitted (himp : ∀ s, I s → P s)
    (hstep : ∀ s a t, I s → ok s a → step s a = some t → I t)
    (hbad : ∀ s a, I s → ¬ ok s a → ∃ t, step s a = some t ∧ ¬ P t)
    (as : List A) (s : S) (hI : I s) :
    Along step P s as ↔ Admitted step ok s as := by
  constructor
  · induction as generalizing s with
    | nil => exact fun _ => trivial
    | cons a as ih =>
      intro halong
      have hok : ok s a := by
        by_contra hno
        obtain ⟨t, ht, hP⟩ := hbad s a hI hno
        exact hP (Along.head (halong.2 t ht))
      exact ⟨hok, fun t ht => ih t (hstep s a t hI hok ht) (halong.2 t ht)⟩
  · intro hadm
    exact Along.mono himp as s (inv_along_admitted hstep as s hI hadm)

end Runs
