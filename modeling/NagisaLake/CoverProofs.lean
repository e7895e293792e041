import NagisaLake.LockingProofs

/-! # Covering — groups that keep a marked row

The rows of a table fall into groups, and some of them are marked.  Under
concurrent transactions a group keeps a marked row when each transaction
covers what it takes: where it has written an unmarked version over a marked
row, it holds a marked version in the same group.  Rows that are held are
nobody else's to change, so what covers the group when it is written still
covers it at the commit (`Covers.manned_commit`). -/

namespace Locking

open KeyedTable

namespace Locked

variable {κ γ ρ : Type} {key : ρ → κ} [DecidableEq κ]

section

variable (group : κ → γ) (mark : ρ → Bool)

/-- Some row of the group is marked. -/
def Manned (t : Table κ ρ key) (g : γ) : Prop :=
  ∃ k r, group k = g ∧ t.find? k = some r ∧ mark r = true

/-- The transaction holds a marked version in the group. -/
def Spare (t : Locked κ ρ key) (i : Nat) (g : γ) : Prop :=
  ∃ k s, group k = g ∧ t.dirty.find? k = some ⟨i, s⟩ ∧ mark s = true

/-- Where the transaction takes a marked row, it holds a marked version in the same group. -/
def Covers (t : Locked κ ρ key) (i : Nat) : Prop :=
  ∀ k r s, t.rows.find? k = some r → mark r = true →
    t.dirty.find? k = some ⟨i, s⟩ → mark s = false → t.Spare group mark i (group k)

end

variable {group : κ → γ} {mark : ρ → Bool} {t u : Locked κ ρ key} {i : Nat}
  {r : ρ} {g : γ}

/-- A transaction that holds nothing takes nothing. -/
theorem covers_of_owns (h : t.Owns i []) : t.Covers group mark i := by
  intro k r s _ _ hs _
  obtain ⟨x, hx, -⟩ := h.holds.mp ⟨s, hs⟩
  cases hx

theorem Spare.kept (h : t.Spare group mark i g) (hk : t.Kept u i) : u.Spare group mark i g := by
  obtain ⟨k, s, hg, hs, hmark⟩ := h
  exact ⟨k, s, hg, (hk.dirty k s).mpr hs, hmark⟩

/-- What the others do leaves a transaction's cover. -/
theorem Covers.kept (h : t.Covers group mark i) (hk : t.Kept u i) : u.Covers group mark i := by
  intro k r s hr hmark hs hplain
  have hold := (hk.dirty k s).mp hs
  rw [hk.rows k ⟨s, hold⟩] at hr
  exact (h k r s hr hmark hold hplain).kept hk

/-- A version over an unmarked one takes nothing, and covers nothing either. -/
theorem Spare.write_plain (h : t.Spare group mark i g)
    (hread : ∀ s, t.read i (key r) = some s → mark s = false) :
    (t.write i r).Spare group mark i g := by
  obtain ⟨k, s, hg, hs, hmark⟩ := h
  refine ⟨k, s, hg, ?_, hmark⟩
  rw [find?_dirty_write, if_neg]
  · exact hs
  intro hkey
  have hplain := hread s (hkey ▸ read_of_holds hs)
  rw [hmark] at hplain
  cases hplain

section

variable (h : t.Covers group mark i)
include h

theorem Covers.write_plain (hread : ∀ s, t.read i (key r) = some s → mark s = false) :
    (t.write i r).Covers group mark i := by
  intro k r₀ s hr₀ hmark hs hplain
  rw [find?_dirty_write] at hs
  split at hs
  · next hkey =>
    -- the transaction has seen the row unmarked, so it had taken it before
    by_cases hold : t.Holds i k
    · obtain ⟨s₀, hs₀⟩ := hold
      have hplain₀ := hread s₀ (hkey ▸ read_of_holds hs₀)
      exact (h k r₀ s₀ hr₀ hmark hs₀ hplain₀).write_plain hread
    have hseen : t.read i k = some r₀ := (read_of_not_holds hold).trans hr₀
    rw [hread r₀ (hkey ▸ hseen)] at hmark
    cases hmark
  · exact (h k r₀ s hr₀ hmark hs hplain).write_plain hread

/-- A marked version covers its group. -/
theorem Covers.write_marked (hr : mark r = true) : (t.write i r).Covers group mark i := by
  intro k r₀ s hr₀ hmark hs hplain
  rw [find?_dirty_write] at hs
  split at hs
  · obtain rfl : r = s := congrArg Dirty.row (Option.some.inj hs)
    rw [hr] at hplain
    cases hplain
  obtain ⟨k', s', hg, hs', hmark'⟩ := h k r₀ s hr₀ hmark hs hplain
  by_cases hkey : key r = k'
  · exact ⟨k', r, hg, hkey ▸ find?_dirty_write_self t i r, hr⟩
  refine ⟨k', s', hg, ?_, hmark'⟩
  rw [find?_dirty_write, if_neg hkey]
  exact hs'

/-- With a spare under another key, the row may go. -/
theorem Covers.write_spare {k : κ} {s : ρ} (hk : k ≠ key r) (hg : group k = group (key r))
    (hs : t.dirty.find? k = some ⟨i, s⟩) (hmark : mark s = true) :
    (t.write i r).Covers group mark i := by
  have hspare : (t.write i r).Spare group mark i (group (key r)) := by
    refine ⟨k, s, hg, ?_, hmark⟩
    rw [find?_dirty_write, if_neg (Ne.symm hk)]
    exact hs
  intro k₀ r₀ s₀ hr₀ hmark₀ hs₀ hplain₀
  rw [find?_dirty_write] at hs₀
  split at hs₀
  · next hkey => exact hkey ▸ hspare
  obtain ⟨k', s', hg', hs', hmark'⟩ := h k₀ r₀ s₀ hr₀ hmark₀ hs₀ hplain₀
  by_cases hkey : key r = k'
  · rw [← hg', ← hkey]
    exact hspare
  refine ⟨k', s', hg', ?_, hmark'⟩
  rw [find?_dirty_write, if_neg hkey]
  exact hs'

/-- To lock a row is to write the version it has. -/
theorem Covers.lock (hread : t.read i (key r) = some r) : (t.write i r).Covers group mark i := by
  cases hmark : mark r with
  | true => exact h.write_marked hmark
  | false =>
    refine h.write_plain fun s hs => ?_
    rw [← Option.some.inj (hread.symm.trans hs)]
    exact hmark

end

theorem Spare.manned_commit (h : t.Spare group mark i g) :
    Manned group mark (t.commit i).rows g := by
  obtain ⟨k, s, hg, hs, hmark⟩ := h
  refine ⟨k, s, hg, ?_, hmark⟩
  rw [find?_commit]
  exact read_of_holds hs

/-- **A COMMIT** of a transaction that covers what it takes leaves every group its marked row. -/
theorem Covers.manned_commit (h : t.Covers group mark i) (hm : Manned group mark t.rows g) :
    Manned group mark (t.commit i).rows g := by
  obtain ⟨k, r, rfl, hr, hmark⟩ := hm
  by_cases hold : t.Holds i k
  · obtain ⟨s, hs⟩ := hold
    cases hplain : mark s with
    | true => exact Spare.manned_commit ⟨k, s, rfl, hs, hplain⟩
    | false => exact (h k r s hr hmark hs hplain).manned_commit
  · refine ⟨k, r, rfl, ?_, hmark⟩
    rw [find?_commit, read_of_not_holds hold]
    exact hr

end Locked

end Locking
