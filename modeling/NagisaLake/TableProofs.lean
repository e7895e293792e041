import Mathlib.Data.List.Nodup
import Mathlib.Algebra.Order.BigOperators.Group.List
import Mathlib.Algebra.Order.Ring.Int
import Mathlib.Tactic.Ring

/-! # Keyed tables — rows under a primary key

A table is a list of rows whose primary keys are distinct; the proof is a
field, so no statement can produce a table that breaks its key.  The
statements are the ones a relational store has: `insert` fails on a
conflicting key, `upsert` replaces the row it conflicts with, `update`
rewrites the rows that satisfy a condition, `delete` drops them.

Rows are read back one at a time (`find?`) or aggregated (`count`,
`total`).  Every statement has one lemma for each way of reading, and
`Related` says of a statement that it only rewrites rows in place. -/

namespace KeyedTable

open List

/-- Rows with distinct primary keys. -/
structure Table (κ ρ : Type) (key : ρ → κ) where
  rows : List ρ
  nodup : (rows.map key).Nodup

namespace Table

variable {κ ρ : Type} {key : ρ → κ}

/-- The table without rows. -/
def empty : Table κ ρ key := ⟨[], List.nodup_nil⟩

/-- Rewrite the rows that satisfy `p`; the rewriting keeps the key. -/
def update (t : Table κ ρ key) (p : ρ → Bool) (f : ρ → ρ)
    (hf : ∀ r, key (f r) = key r) : Table κ ρ key where
  rows := t.rows.map fun r => if p r then f r else r
  nodup := by
    have h : (t.rows.map fun r => if p r then f r else r).map key = t.rows.map key := by
      rw [List.map_map]
      apply List.map_congr_left
      intro r _
      show key (if p r then f r else r) = key r
      split
      · exact hf r
      · rfl
    rw [h]
    exact t.nodup

/-- Drop the rows that satisfy `p`. -/
def delete (t : Table κ ρ key) (p : ρ → Bool) : Table κ ρ key where
  rows := t.rows.filter fun r => !p r
  nodup := t.nodup.sublist (List.filter_sublist.map key)

/-- The number of rows that satisfy `p`. -/
def count (t : Table κ ρ key) (p : ρ → Bool) : Nat := t.rows.countP p

/-- The sum of `w` over the rows. -/
def total (t : Table κ ρ key) (w : ρ → Int) : Int := (t.rows.map w).sum

/-- Some row satisfies `p`. -/
def exists? (t : Table κ ρ key) (p : ρ → Bool) : Bool := t.rows.any p

variable [DecidableEq κ]

/-- The row under a key. -/
def find? (t : Table κ ρ key) (k : κ) : Option ρ :=
  t.rows.find? fun r => key r = k

/-- A new row; `none` when its key is taken. -/
def insert (t : Table κ ρ key) (r : ρ) : Option (Table κ ρ key) :=
  if h : key r ∈ t.rows.map key then none
  else some ⟨r :: t.rows, List.nodup_cons.mpr ⟨h, t.nodup⟩⟩

/-- A new row, or `f old` in place of the row under the same key. -/
def upsert (t : Table κ ρ key) (r : ρ) (f : ρ → ρ) (hf : ∀ s, key (f s) = key s) : Table κ ρ key :=
  if h : key r ∈ t.rows.map key
  then t.update (fun s => key s = key r) f hf
  else ⟨r :: t.rows, List.nodup_cons.mpr ⟨h, t.nodup⟩⟩

/-- A new row in place of whatever stood under its key. -/
def put (t : Table κ ρ key) (r : ρ) : Table κ ρ key where
  rows := r :: t.rows.filter fun s => key s ≠ key r
  nodup := by
    rw [List.map_cons, List.nodup_cons]
    refine ⟨?_, t.nodup.sublist (List.filter_sublist.map key)⟩
    intro hmem
    obtain ⟨s, hs, hks⟩ := List.mem_map.mp hmem
    have hne := (List.mem_filter.mp hs).2
    simp [hks] at hne

/-- `UPDATE … WHERE key = k AND p`: `none` when no row was affected. -/
def updateKey (t : Table κ ρ key) (k : κ) (p : ρ → Bool) (f : ρ → ρ)
    (hf : ∀ r, key (f r) = key r) : Option (Table κ ρ key) :=
  if t.exists? fun r => decide (key r = k) && p r then
    some (t.update (fun r => decide (key r = k) && p r) f hf)
  else none

/-! ## Reading one row -/

@[simp] theorem find?_empty (k : κ) : (empty : Table κ ρ key).find? k = none := rfl

variable {t u : Table κ ρ key} {k : κ} {r : ρ} {p : ρ → Bool} {f : ρ → ρ}
  {R : ρ → ρ → Prop}

theorem mem_of_find? (h : t.find? k = some r) : r ∈ t.rows :=
  mem_of_find?_eq_some h

theorem key_of_find? (h : t.find? k = some r) : key r = k := by
  have := find?_some h
  simpa using this

/-- Distinct keys: a row is found under its own key. -/
theorem find?_of_mem (h : r ∈ t.rows) : t.find? (key r) = some r := by
  have hsome : (t.find? (key r)).isSome := by
    rw [find?, find?_isSome]
    exact ⟨r, h, by simp⟩
  obtain ⟨s, hs⟩ := Option.isSome_iff_exists.mp hsome
  have hkey : key s = key r := key_of_find? hs
  rw [hs, inj_on_of_nodup_map t.nodup (mem_of_find? hs) h hkey]

theorem find?_eq_some_iff : t.find? k = some r ↔ r ∈ t.rows ∧ key r = k := by
  constructor
  · intro h
    exact ⟨mem_of_find? h, key_of_find? h⟩
  · rintro ⟨h, rfl⟩
    exact find?_of_mem h

theorem find?_eq_none_iff : t.find? k = none ↔ k ∉ t.rows.map key := by
  rw [find?, find?_eq_none]
  constructor
  · intro h hk
    obtain ⟨r, hr, hkr⟩ := mem_map.mp hk
    exact h r hr (by simpa using hkr)
  · intro h r hr hkr
    exact h (mem_map.mpr ⟨r, hr, by simpa using hkr⟩)

variable {hf : ∀ r, key (f r) = key r} {P : ρ → Prop}

omit [DecidableEq κ] in
theorem mem_update : r ∈ (t.update p f hf).rows ↔ ∃ s ∈ t.rows, r = if p s then f s else s := by
  show r ∈ t.rows.map (fun s => if p s then f s else s) ↔ _
  rw [mem_map]
  constructor
  all_goals
    rintro ⟨s, hs, rfl⟩
    exact ⟨s, hs, rfl⟩

theorem find?_update (t : Table κ ρ key) (p : ρ → Bool) (f : ρ → ρ)
    (hf : ∀ r, key (f r) = key r) (k : κ) :
    (t.update p f hf).find? k = (t.find? k).map fun r => if p r then f r else r := by
  have hkey : ∀ r, key (if p r then f r else r) = key r := by
    intro r
    split
    · exact hf r
    · rfl
  rw [find?, find?]
  show (t.rows.map _).find? _ = _
  rw [find?_map]
  have hcond : ((fun r => decide (key r = k)) ∘ fun r =>
      if p r then f r else r) = fun r => decide (key r = k) := by
    funext r
    show decide (key (if p r then f r else r) = k) = decide (key r = k)
    rw [hkey r]
  rw [hcond]

theorem find?_delete (t : Table κ ρ key) (p : ρ → Bool) (k : κ) :
    (t.delete p).find? k = (t.find? k).filter fun r => !p r := by
  cases h : t.find? k with
  | none =>
    show _ = none
    rw [find?_eq_none_iff] at h ⊢
    intro hk
    obtain ⟨r, hr, hkr⟩ := mem_map.mp hk
    exact h (mem_map.mpr ⟨r, (mem_filter.mp hr).1, hkr⟩)
  | some r =>
    obtain ⟨hr, hk⟩ := find?_eq_some_iff.mp h
    cases hp : p r with
    | false =>
      rw [show (some r).filter (fun s => !p s) = some r by simp [hp]]
      exact find?_eq_some_iff.mpr ⟨mem_filter.mpr ⟨hr, by simp [hp]⟩, hk⟩
    | true =>
      rw [show (some r).filter (fun s => !p s) = none by simp [hp]]
      rw [find?_eq_none_iff]
      intro hmem
      obtain ⟨s, hs, hks⟩ := mem_map.mp hmem
      obtain ⟨hs₁, hs₂⟩ := mem_filter.mp hs
      have : s = r :=
        inj_on_of_nodup_map t.nodup hs₁ hr (hks.trans hk.symm)
      rw [this, hp] at hs₂
      exact Bool.noConfusion hs₂

omit [DecidableEq κ] in
/-- Chosen rows are distinct in a column that determines their keys. -/
theorem nodup_map_filter {β : Type} {g : ρ → β} (t : Table κ ρ key)
    (h : ∀ r s, p r = true → p s = true → g r = g s → key r = key s) :
    ((t.rows.filter p).map g).Nodup := by
  refine List.Nodup.map_on ?_ (t.nodup.of_map.filter p)
  intro r hr s hs hg
  obtain ⟨hr, hpr⟩ := mem_filter.mp hr
  obtain ⟨hs, hps⟩ := mem_filter.mp hs
  exact inj_on_of_nodup_map t.nodup hr hs (h r s hpr hps hg)

/-- Deleting the row under a key. -/
theorem find?_delete_self (t : Table κ ρ key) (k : κ) :
    (t.delete fun r => key r = k).find? k = none := by
  rw [find?_delete, Option.filter_eq_none_iff]
  intro r hr
  simp [key_of_find? hr]

theorem find?_delete_ne {k' : κ} (t : Table κ ρ key) (hk : k' ≠ k) :
    (t.delete fun r => key r = k).find? k' = t.find? k' := by
  rw [find?_delete]
  cases h : t.find? k' with
  | none => rfl
  | some r => simp [key_of_find? h, hk]

theorem mem_put {s : ρ} : s ∈ (t.put r).rows ↔ s = r ∨ (s ∈ t.rows ∧ key s ≠ key r) := by
  show s ∈ r :: t.rows.filter (fun s => decide (key s ≠ key r)) ↔ _
  rw [mem_cons, mem_filter, decide_eq_true_eq]

theorem find?_put (t : Table κ ρ key) (r : ρ) (k : κ) :
    (t.put r).find? k = if key r = k then some r else t.find? k := by
  by_cases hk : key r = k
  · rw [if_pos hk]
    exact find?_eq_some_iff.mpr ⟨mem_put.mpr (.inl rfl), hk⟩
  rw [if_neg hk]
  apply Option.ext
  intro s
  rw [find?_eq_some_iff, find?_eq_some_iff, mem_put]
  constructor
  · rintro ⟨hs | hs, hks⟩
    · exact absurd (hs ▸ hks) hk
    · exact ⟨hs.1, hks⟩
  · rintro ⟨hs, hks⟩
    exact ⟨.inr ⟨hs, fun he => hk (he ▸ hks)⟩, hks⟩

/-- Putting a row back changes nothing. -/
theorem find?_put_self (h : t.find? k = some r) (k' : κ) : (t.put r).find? k' = t.find? k' := by
  rw [find?_put]
  split
  · next hk => rw [← hk, key_of_find? h, h]
  · rfl

theorem insert_eq_some_iff : t.insert r = some u
      ↔ t.find? (key r) = none ∧ u.rows = r :: t.rows := by
  rw [find?_eq_none_iff, insert]
  constructor
  · intro h
    split at h
    · cases h
    · next hk => exact ⟨hk, by rw [← Option.some.inj h]⟩
  · rintro ⟨hk, hu⟩
    rw [dif_neg hk]
    congr 1
    cases u
    cases hu
    rfl

/-- A free key can be inserted. -/
theorem exists_insert (h : t.find? (key r) = none) : ∃ u, t.insert r = some u := by
  rw [find?_eq_none_iff] at h
  exact ⟨_, dif_neg h⟩

theorem find?_insert (h : t.insert r = some u) (k : κ) :
    u.find? k = if key r = k then some r else t.find? k := by
  obtain ⟨-, hu⟩ := insert_eq_some_iff.mp h
  rw [find?, hu, find?_cons]
  by_cases hk : key r = k
  · rw [if_pos hk]
    simp [hk]
  · rw [if_neg hk]
    simp [hk, find?]

/-- An insertion leaves the rows that were there. -/
theorem find?_insert_old {x : ρ} (h : t.insert r = some u) (hx : t.find? k = some x) :
    u.find? k = some x := by
  rw [find?_insert h]
  split
  · next hk =>
    rw [← hk, (insert_eq_some_iff.mp h).1] at hx
    cases hx
  · exact hx

theorem find?_upsert (t : Table κ ρ key) (r : ρ) (f : ρ → ρ) (hf : ∀ s, key (f s) = key s) (k : κ) :
    (t.upsert r f hf).find? k = if key r = k then some ((t.find? k).elim r f) else t.find? k := by
  rw [upsert]
  split
  · next hmem =>
    rw [find?_update]
    by_cases hk : key r = k
    · rw [if_pos hk]
      obtain ⟨s, hs, hks⟩ := mem_map.mp hmem
      have hfind : t.find? k = some s :=
        find?_eq_some_iff.mpr ⟨hs, hks.trans hk⟩
      rw [hfind]
      simp [hks]
    · rw [if_neg hk]
      cases h : t.find? k with
      | none => rfl
      | some s =>
        have hne : key s ≠ key r := by
          rw [key_of_find? h]
          exact fun e => hk e.symm
        simp [hne]
  · next hmem =>
    have hnone : t.find? (key r) = none := find?_eq_none_iff.mpr hmem
    rw [find?, find?_cons]
    by_cases hk : key r = k
    · rw [if_pos hk, ← hk, hnone]
      simp
    · rw [if_neg hk]
      simp [hk, find?]

omit [DecidableEq κ] in
theorem exists?_iff : t.exists? p = true ↔ ∃ r ∈ t.rows, p r = true := by
  rw [exists?, any_eq_true]

/-! ## Aggregates -/

theorem count_insert (h : t.insert r = some u) (q : ρ → Bool) :
    u.count q = t.count q + if q r then 1 else 0 := by
  obtain ⟨-, hu⟩ := insert_eq_some_iff.mp h
  rw [count, hu, countP_cons]
  rfl

omit [DecidableEq κ] in
/-- Deleting splits a total into what stays and what goes. -/
theorem total_delete (t : Table κ ρ key) (p : ρ → Bool) (w : ρ → Int) :
    (t.delete p).total w + ((t.rows.filter p).map w).sum = t.total w := by
  show ((t.rows.filter fun r => !p r).map w).sum + _ = (t.rows.map w).sum
  induction t.rows with
  | nil => rfl
  | cons r rs ih =>
    rw [filter_cons, filter_cons, map_cons, sum_cons, ← ih]
    cases p r with
    | true =>
      simp only [Bool.not_true, Bool.false_eq_true, if_false, if_true, map_cons, sum_cons]
      ring
    | false =>
      simp only [Bool.not_false, Bool.false_eq_true, if_false, if_true, map_cons, sum_cons]
      ring

omit [DecidableEq κ] in
/-- An update that keeps `w` keeps every total of `w`. -/
theorem total_update_of_eq (t : Table κ ρ key) (p : ρ → Bool) (f : ρ → ρ)
    (hf : ∀ r, key (f r) = key r) (w : ρ → Int)
    (hw : ∀ r ∈ t.rows, p r = true → w (f r) = w r) :
    (t.update p f hf).total w = t.total w := by
  show ((t.rows.map fun r => if p r then f r else r).map w).sum = (t.rows.map w).sum
  rw [map_map]
  congr 1
  apply map_congr_left
  intro r hr
  show w (if p r then f r else r) = w r
  split
  · next hp => exact hw r hr hp
  · rfl

omit [DecidableEq κ] in
theorem count_eq_zero (h : ∀ r ∈ t.rows, p r = false) : t.count p = 0 := by
  rw [count, countP_eq_zero]
  intro r hr
  rw [h r hr]
  exact Bool.false_ne_true

/-- One row under a key. -/
theorem filter_key (h : t.find? k = some r) :
    t.rows.filter (fun s => decide (key s = k)) = [r] := by
  obtain ⟨hmem, hk⟩ := find?_eq_some_iff.mp h
  refine perm_singleton.mp ?_
  refine (perm_ext_iff_of_nodup ?_ (nodup_singleton r)).mpr ?_
  · exact (List.Nodup.of_map key t.nodup).filter _
  intro s
  rw [mem_filter, decide_eq_true_eq, mem_singleton]
  constructor
  · rintro ⟨hs, hks⟩
    have hfound : t.find? k = some s := find?_eq_some_iff.mpr ⟨hs, hks⟩
    exact Option.some.inj (hfound.symm.trans h)
  · rintro rfl
    exact ⟨hmem, hk⟩

/-- A key that is present counts once. -/
theorem count_key (h : t.find? k = some r) : t.count (fun s => decide (key s = k)) = 1 := by
  rw [count, countP_eq_length_filter, filter_key h]
  rfl

/-- Under a key there is one row to count. -/
theorem count_key_and (h : t.find? k = some r) (p : ρ → Bool) :
    t.count (fun s => p s && decide (key s = k)) = if p r then 1 else 0 := by
  rw [count, ← countP_filter, filter_key h, countP_singleton]

/-- A row put in place of another counts for it. -/
theorem total_put (t : Table κ ρ key) (r : ρ) (w : ρ → Int) :
    (t.put r).total w + ((t.find? (key r)).map w).getD 0 = t.total w + w r := by
  have hdel := total_delete t (fun s => decide (key s = key r)) w
  have hput : (t.put r).total w = w r + (t.delete fun s => decide (key s = key r)).total w := by
    show ((r :: t.rows.filter fun s => decide (key s ≠ key r)).map w).sum
      = w r + ((t.rows.filter fun s => !decide (key s = key r)).map w).sum
    simp
  have hold : ((t.rows.filter fun s => decide (key s = key r)).map w).sum
      = ((t.find? (key r)).map w).getD 0 := by
    cases h : t.find? (key r) with
    | none =>
      have hnone : t.rows.filter (fun s => decide (key s = key r)) = [] := by
        rw [filter_eq_nil_iff]
        intro s hs hk
        rw [find?_eq_none_iff] at h
        exact h (of_decide_eq_true hk ▸ mem_map_of_mem hs)
      rw [hnone]
      rfl
    | some s =>
      rw [filter_key h]
      simp
  omega

omit [DecidableEq κ] in
theorem total_nonneg {w : ρ → Int} (h : ∀ r ∈ t.rows, 0 ≤ w r) : 0 ≤ t.total w := by
  refine sum_nonneg fun x hx => ?_
  obtain ⟨r, hr, rfl⟩ := mem_map.mp hx
  exact h r hr

/-! ## Conditional updates of one row -/

theorem updateKey_eq_some (h : t.updateKey k p f hf = some u) : ∃ r, t.find? k = some r ∧ p r = true
      ∧ u = t.update (fun r => decide (key r = k) && p r) f hf := by
  rw [updateKey] at h
  split at h
  · next hex =>
    obtain ⟨r, hr, hpr⟩ := exists?_iff.mp hex
    rw [Bool.and_eq_true, decide_eq_true_eq] at hpr
    exact ⟨r, find?_eq_some_iff.mpr ⟨hr, hpr.1⟩, hpr.2, (Option.some.inj h).symm⟩
  · cases h

theorem exists_updateKey (f : ρ → ρ) (hf : ∀ r, key (f r) = key r)
    (hr : t.find? k = some r) (hp : p r = true) :
    ∃ u, t.updateKey k p f hf = some u := by
  have hexists : t.exists? (fun r => decide (key r = k) && p r) = true := by
    refine exists?_iff.mpr ⟨r, mem_of_find? hr, ?_⟩
    rw [decide_eq_true (key_of_find? hr), hp]
    rfl
  exact ⟨_, if_pos hexists⟩

section

variable (h : t.updateKey k p f hf = some u)
include h

theorem find?_updateKey (hr : t.find? k = some r) (k' : κ) :
    u.find? k' = if k' = k then some (f r) else t.find? k' := by
  obtain ⟨s, hs, hps, rfl⟩ := updateKey_eq_some h
  cases hs.symm.trans hr
  rw [find?_update]
  by_cases hk : k' = k
  · rw [if_pos hk, hk, hr]
    simp [key_of_find? hr, hps]
  rw [if_neg hk]
  cases hf' : t.find? k' with
  | none => rfl
  | some v => simp [key_of_find? hf', hk]

/-- **ONE ROW MOVES**: the row under the key takes the place of what it was. -/
theorem perm_updateKey (hr : t.find? k = some r) : (r :: u.rows).Perm (f r :: t.rows) := by
  obtain ⟨s, hs, hps, rfl⟩ := updateKey_eq_some h
  obtain rfl : s = r := Option.some.inj (hs.symm.trans hr)
  obtain ⟨hmem, hk⟩ := find?_eq_some_iff.mp hr
  have hnodup := t.nodup
  show (s :: t.rows.map fun r => if decide (key r = k) && p r then f r else r).Perm (f s :: t.rows)
  -- split the rows at `s`: no other row carries its key
  obtain ⟨l₁, l₂, hl⟩ := append_of_mem hmem
  rw [hl, map_append, map_cons] at hnodup
  obtain ⟨hnot, -⟩ := nodup_cons.mp (nodup_middle.mp hnodup)
  have hfix : ∀ r ∈ l₁ ++ l₂, (if decide (key r = k) && p r then f r else r) = r := by
    intro r hr
    have hne : key r ≠ k := by
      rintro hkr
      rw [← map_append, hk, ← hkr] at hnot
      exact hnot (mem_map_of_mem hr)
    simp [hne]
  rw [hl, map_append, map_cons, map_congr_left fun r hr => hfix r (mem_append_left _ hr),
    map_congr_left fun r hr => hfix r (mem_append_right _ hr)]
  simp only [map_id_fun', id, hk, hps, decide_true, Bool.and_self, if_true]
  exact (perm_middle.cons s).trans ((List.Perm.swap ..).trans (perm_middle.symm.cons _))

theorem count_updateKey (hr : t.find? k = some r) (q : ρ → Bool) :
    u.count q + (if q r then 1 else 0) = t.count q + (if q (f r) then 1 else 0) := by
  have hcount := (perm_updateKey h hr).countP_eq q
  rwa [countP_cons, countP_cons] at hcount

end

/-! ## Facts about every row -/

theorem forall_put (hall : ∀ s ∈ t.rows, P s) (hr : P r) : ∀ s ∈ (t.put r).rows, P s := by
  intro s hs
  rcases mem_put.mp hs with rfl | ⟨hs, -⟩
  · exact hr
  · exact hall s hs

omit [DecidableEq κ] in
theorem forall_update (hf : ∀ r, key (f r) = key r) (hall : ∀ s ∈ t.rows, P s)
    (hkeep : ∀ s, P s → P (f s)) :
    ∀ s ∈ (t.update p f hf).rows, P s := by
  intro s hs
  obtain ⟨r, hr, rfl⟩ := mem_update.mp hs
  split
  · exact hkeep r (hall r hr)
  · exact hall r hr

omit [DecidableEq κ] in
theorem forall_delete (hall : ∀ s ∈ t.rows, P s) : ∀ s ∈ (t.delete p).rows, P s :=
  fun s hs => hall s (mem_of_mem_filter hs)

/-! ## Rows rewritten in place -/

/-- Rows with distinct keys, put one after the other. -/
theorem find?_foldl_put : ∀ (rs : List ρ) (t : Table κ ρ key), (rs.map key).Nodup →
      (rs.foldl put t).find? k = ((rs.find? fun r => decide (key r = k)) <|> t.find? k) := by
  intro rs
  induction rs with
  | nil => exact fun _ _ => rfl
  | cons r rs ih =>
    intro t hnodup
    rw [map_cons, nodup_cons] at hnodup
    rw [foldl_cons, ih (t.put r) hnodup.2, find?_put, find?_cons]
    by_cases hk : key r = k
    · -- no later row has this key
      have hnone : (rs.find? fun s => decide (key s = k)) = none := by
        rw [find?_eq_none]
        intro s hs hks
        refine hnodup.1 (mem_map.mpr ⟨s, hs, ?_⟩)
        rw [of_decide_eq_true hks, hk]
      rw [hnone, if_pos hk, decide_eq_true hk]
      rfl
    · rw [if_neg hk, decide_eq_false hk]

/-- Each row counts for the one it replaces. -/
theorem total_foldl_put (w : ρ → Int) : ∀ (rs : List ρ) (t : Table κ ρ key), (rs.map key).Nodup →
      (rs.foldl put t).total w = t.total w
        + (rs.map fun r => w r - ((t.find? (key r)).map w).getD 0).sum := by
  intro rs
  induction rs with
  | nil => exact fun t _ => (Int.add_zero _).symm
  | cons r rs ih =>
    intro t hnodup
    rw [map_cons, nodup_cons] at hnodup
    have hrest : (rs.map fun s =>
        w s - (((t.put r).find? (key s)).map w).getD 0)
        = rs.map fun s => w s - ((t.find? (key s)).map w).getD 0 := by
      apply map_congr_left
      intro s hs
      rw [find?_put, if_neg]
      intro hk
      exact hnodup.1 (mem_map.mpr ⟨s, hs, hk.symm⟩)
    have hput := total_put t r w
    rw [foldl_cons, ih (t.put r) hnodup.2, hrest, map_cons, sum_cons]
    omega

/-- Tables in which the same is found have the same rows. -/
theorem perm_of_find? (h : ∀ k, t.find? k = u.find? k) : t.rows.Perm u.rows := by
  refine (perm_ext_iff_of_nodup t.nodup.of_map u.nodup.of_map).mpr fun r => ?_
  constructor
  · intro hr
    exact mem_of_find? ((h (key r)).symm.trans (find?_of_mem hr))
  · intro hr
    exact mem_of_find? ((h (key r)).trans (find?_of_mem hr))

theorem total_congr (w : ρ → Int) (h : ∀ k, t.find? k = u.find? k) : t.total w = u.total w :=
  ((perm_of_find? h).map w).sum_eq

omit [DecidableEq κ] in
/-- Counting is summing ones. -/
theorem total_indicator (t : Table κ ρ key) (q : ρ → Bool) :
    t.total (fun r => if q r then 1 else 0) = t.count q := by
  show (t.rows.map _).sum = (t.rows.countP q : Int)
  induction t.rows with
  | nil => rfl
  | cons r rs ih =>
    rw [map_cons, sum_cons, ih, countP_cons]
    cases q r with
    | true =>
      rw [if_pos rfl, if_pos rfl]
      omega
    | false =>
      rw [if_neg Bool.false_ne_true, if_neg Bool.false_ne_true]
      omega

/-- What a fold of `put` holds was there before or was put. -/
theorem mem_foldl_put {α : Type} (f : α → ρ) : ∀ (l : List α) (t : Table κ ρ key),
      r ∈ (l.foldl (fun t a => t.put (f a)) t).rows →
      r ∈ t.rows ∨ ∃ a ∈ l, r = f a := by
  intro l
  induction l with intro t hr
  | nil =>
    exact .inl hr
  | cons a l ih =>
    rcases ih (t.put (f a)) hr with hput | ⟨b, hb, rfl⟩
    · rcases mem_put.mp hput with rfl | ⟨hold, -⟩
      · exact .inr ⟨a, mem_cons_self, rfl⟩
      · exact .inl hold
    · exact .inr ⟨b, mem_cons_of_mem a hb, rfl⟩

/-- The keys stay, and every row changes as `R` allows. -/
def Related (R : ρ → ρ → Prop) (t u : Table κ ρ key) : Prop :=
  ∀ k, Option.Rel R (t.find? k) (u.find? k)

theorem Related.forth (h : t.Related R u) (k : κ) (r : ρ) (hr : t.find? k = some r) :
    ∃ r', u.find? k = some r' ∧ R r r' := by
  have hk := h k
  rw [hr] at hk
  generalize u.find? k = found at hk ⊢
  cases hk with
  | some hR => exact ⟨_, rfl, hR⟩

theorem Related.back (h : t.Related R u) (k : κ) (r' : ρ) (hr : u.find? k = some r') :
    ∃ r, t.find? k = some r ∧ R r r' := by
  have hk := h k
  rw [hr] at hk
  generalize t.find? k = found at hk ⊢
  cases hk with
  | some hR => exact ⟨_, rfl, hR⟩

/-- No key appears. -/
theorem Related.none (h : t.Related R u) (hk : t.find? k = none) : u.find? k = none := by
  cases hu : u.find? k with
  | none => rfl
  | some r' =>
    obtain ⟨r, hr, -⟩ := h.back k r' hu
    rw [hk] at hr
    cases hr

theorem related_refl (hR : ∀ r, R r r) (t : Table κ ρ key) : t.Related R t := by
  intro k
  cases t.find? k with
  | none => exact .none
  | some r => exact .some (hR r)

theorem related_update (hR : ∀ r, R r r) (hf : ∀ r, key (f r) = key r)
    (h : ∀ r ∈ t.rows, p r = true → R r (f r)) :
    t.Related R (t.update p f hf) := by
  intro k
  rw [find?_update]
  cases hr : t.find? k with
  | none => exact .none
  | some r =>
    refine .some ?_
    show R r (if p r then f r else r)
    by_cases hp : p r = true
    · rw [if_pos hp]
      exact h r (mem_of_find? hr) hp
    · rw [if_neg hp]
      exact hR r

theorem related_updateKey (hR : ∀ r, R r r) (hup : t.updateKey k p f hf = some u)
    (h : ∀ r, t.find? k = some r → p r = true → R r (f r)) :
    t.Related R u := by
  obtain ⟨-, -, -, rfl⟩ := updateKey_eq_some hup
  refine related_update hR hf fun r hr hp => ?_
  rw [Bool.and_eq_true, decide_eq_true_eq] at hp
  exact h r (find?_eq_some_iff.mpr ⟨hr, hp.1⟩) hp.2

/-- A condition that no row comes to satisfy counts no more rows. -/
theorem Related.count_le {q : ρ → Bool} (h : t.Related R u)
    (hR : ∀ r r', R r r' → q r' = true → q r = true) : u.count q ≤ t.count q := by
  have hsub : (u.rows.filter q).map key ⊆ (t.rows.filter q).map key := by
    intro k hk
    obtain ⟨r', hr', rfl⟩ := mem_map.mp hk
    obtain ⟨hmem, hq⟩ := mem_filter.mp hr'
    obtain ⟨r, hr, hrel⟩ := h.back _ r' (find?_of_mem hmem)
    exact mem_map.mpr ⟨r, mem_filter.mpr ⟨mem_of_find? hr, hR r r' hrel hq⟩, key_of_find? hr⟩
  have hle := (subperm_of_subset (u.nodup.sublist (filter_sublist.map key)) hsub).length_le
  rw [length_map, length_map] at hle
  rw [count, count, countP_eq_length_filter, countP_eq_length_filter]
  exact hle

end Table

end KeyedTable
