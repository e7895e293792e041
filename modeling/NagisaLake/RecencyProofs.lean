import NagisaLake.TableProofs
import Mathlib.Data.List.Perm.Subperm

/-! # Recency queues — rows with a place in a queue

Beside the rows there is a queue of slots, oldest first.  A row bears the
number of its latest slot; when it is touched again or goes, the old slot
stays behind and is stale.  `popLive` takes the oldest slot that is not, and
a queue that has grown too long is filtered. -/

namespace Recency

open List

variable {ρ τ : Type} {slot : ρ → Nat × τ} {rows : List ρ}
  {order : List (Nat × τ)} {next : Nat} {r r' : ρ} {s : Nat × τ}

/-- Every row has its slot in the queue, which is sorted by its numbers; all of
    them are below the next one. -/
structure Ordered (slot : ρ → Nat × τ) (rows : List ρ)
    (order : List (Nat × τ)) (next : Nat) : Prop where
  sorted : order.Pairwise fun a b => a.1 < b.1
  below : ∀ s ∈ order, s.1 < next
  queued : ∀ r ∈ rows, slot r ∈ order
  distinct : (rows.map slot).Nodup

theorem ordered_nil : Ordered slot [] [] next :=
  ⟨.nil, nofun, nofun, .nil⟩

section

variable (h : Ordered slot rows order next)
include h

/-- No number is in the queue twice. -/
theorem Ordered.numbers : (order.map Prod.fst).Nodup := by
  refine pairwise_map.mpr (h.sorted.imp ?_)
  intro a b hlt heq
  rw [heq] at hlt
  exact Nat.lt_irrefl _ hlt

theorem Ordered.eq_of_slot (hr : r ∈ rows) (hr' : r' ∈ rows) (heq : slot r = slot r') : r = r' :=
  inj_on_of_nodup_map h.distinct hr hr' heq

/-- Rows may go. -/
theorem Ordered.remove {rows' : List ρ}
    (hsub : rows'.Sublist rows) : Ordered slot rows' order next :=
  { h with
    queued := fun r hr => h.queued r (hsub.subset hr)
    distinct := h.distinct.sublist (hsub.map slot) }

/-- A row gets the next number. -/
theorem Ordered.push (hr : (slot r).1 = next) :
    Ordered slot (r :: rows) (order ++ [slot r]) (next + 1) where
  sorted := by
    refine pairwise_append.mpr ⟨h.sorted, pairwise_singleton _ _, ?_⟩
    intro a ha b hb
    rw [mem_singleton.mp hb, hr]
    exact h.below a ha
  below := by
    intro s hs
    rcases mem_append.mp hs with hs | hs
    · exact Nat.lt_succ_of_lt (h.below s hs)
    · rw [mem_singleton.mp hs, hr]
      exact Nat.lt_succ_self next
  queued := by
    intro r' hr'
    rcases mem_cons.mp hr' with rfl | hr'
    · exact mem_append_right _ (mem_singleton_self _)
    · exact mem_append_left _ (h.queued r' hr')
  distinct := by
    refine nodup_cons.mpr ⟨fun hmem => ?_, h.distinct⟩
    obtain ⟨r', hr', heq⟩ := mem_map.mp hmem
    have hlt := h.below _ (h.queued r' hr')
    rw [heq, hr] at hlt
    exact Nat.lt_irrefl next hlt

/-- A queue without some of its stale slots. -/
theorem Ordered.keep {p : Nat × τ → Bool} (hp : ∀ r ∈ rows, p (slot r) = true) :
    Ordered slot rows (order.filter p) next where
  sorted := h.sorted.filter p
  below := fun s hs => h.below s (mem_of_mem_filter hs)
  queued := fun r hr => mem_filter.mpr ⟨h.queued r hr, hp r hr⟩
  distinct := h.distinct

/-- Without stale slots the queue is as long as the table at most. -/
theorem Ordered.length_le (hlive : ∀ s ∈ order, ∃ r ∈ rows, slot r = s) :
    order.length ≤ rows.length := by
  have hsub : order ⊆ rows.map slot := fun s hs => mem_map.mpr (hlive s hs)
  have hle := (h.numbers.of_map.subperm hsub).length_le
  rwa [length_map] at hle

end

/-- The slot at the front is stale. -/
theorem Ordered.skip (h : Ordered slot rows (s :: order) next)
    (hs : ∀ r ∈ rows, slot r ≠ s) : Ordered slot rows order next where
  sorted := (pairwise_cons.mp h.sorted).2
  below := fun s' hs' => h.below s' (mem_cons_of_mem s hs')
  queued := fun r hr =>
    (mem_cons.mp (h.queued r hr)).resolve_left (hs r hr)
  distinct := h.distinct

/-- The row of the slot at the front is the oldest. -/
theorem Ordered.oldest (h : Ordered slot rows (slot r :: order) next)
    (hr' : r' ∈ rows) (hr : r ∈ rows) :
    r' = r ∨ (slot r).1 < (slot r').1 := by
  rcases mem_cons.mp (h.queued r' hr') with heq | hmem
  · exact .inl (h.eq_of_slot hr' hr heq)
  · exact .inr ((pairwise_cons.mp h.sorted).1 _ hmem)

/-- Pop slots until one has a row. -/
def popLive (find : Nat × τ → Option ρ) : List (Nat × τ) → Option ρ × List (Nat × τ)
  | [] => (none, [])
  | s :: order =>
    match find s with
    | some r => (some r, order)
    | none => popLive find order

theorem popLive_length (find : Nat × τ → Option ρ) (order : List (Nat × τ)) :
    (popLive find order).2.length ≤ order.length := by
  induction order with
  | nil => exact Nat.le_refl 0
  | cons s order ih =>
    rw [popLive]
    cases find s with
    | some r => exact Nat.le_succ _
    | none => exact Nat.le_succ_of_le ih

/-- **THE OLDEST ROW** is what `popLive` finds, when there is a row. -/
theorem popLive_spec {find : Nat × τ → Option ρ}
    (hfind : ∀ s r, find s = some r ↔ r ∈ rows ∧ slot r = s) :
    ∀ order, Ordered slot rows order next → rows ≠ [] →
      ∃ r order', popLive find order = (some r, order') ∧ r ∈ rows
        ∧ (∀ r' ∈ rows, r' = r ∨ (slot r).1 < (slot r').1)
        ∧ ∀ rows', rows'.Sublist rows → r ∉ rows' → Ordered slot rows' order' next := by
  intro order
  induction order with intro h hne
  | nil =>
    obtain ⟨r, hr⟩ := exists_mem_of_ne_nil rows hne
    cases h.queued r hr
  | cons s order ih =>
    rw [popLive]
    cases hs : find s with
    | none =>
      refine ih (h.skip fun r hr heq => ?_) hne
      rw [(hfind s r).mpr ⟨hr, heq⟩] at hs
      cases hs
    | some r =>
      obtain ⟨hr, rfl⟩ := (hfind s r).mp hs
      refine ⟨r, order, rfl, hr, fun r' hr' => h.oldest hr' hr, ?_⟩
      intro rows' hsub hgone
      refine (h.remove hsub).skip fun r' hr' heq => hgone ?_
      rwa [← h.eq_of_slot (hsub.subset hr') hr heq]

/-- A queue that is too long loses its stale slots. -/
theorem Ordered.compact {find : Nat × τ → Option ρ} {limit bound : Nat}
    (hfind : ∀ s r, find s = some r ↔ r ∈ rows ∧ slot r = s)
    (h : Ordered slot rows order next) (hlimit : limit ≤ bound)
    (hrows : rows.length ≤ bound) :
    Ordered slot rows (if limit < order.length then
        order.filter fun s => (find s).isSome else order) next
      ∧ (if limit < order.length then
        order.filter fun s => (find s).isSome else order).length ≤ bound := by
  have hkeep := h.keep (p := fun s => (find s).isSome) fun r hr =>
    Option.isSome_iff_exists.mpr ⟨r, (hfind _ r).mpr ⟨hr, rfl⟩⟩
  split
  · refine ⟨hkeep, (hkeep.length_le fun s hs => ?_).trans hrows⟩
    obtain ⟨r, hr⟩ := Option.isSome_iff_exists.mp (mem_filter.mp hs).2
    exact ⟨r, (hfind s r).mp hr⟩
  · next hshort => exact ⟨h, (Nat.not_lt.mp hshort).trans hlimit⟩

open KeyedTable in
/-- One row goes with its key. -/
theorem length_delete_key {κ : Type} {key : ρ → κ} [DecidableEq κ]
    {t : Table κ ρ key} {k : κ} (h : t.find? k = some r) :
    (t.delete fun s => key s = k).rows.length + 1 = t.rows.length := by
  have hsplit := length_eq_length_filter_add (l := t.rows) fun s => decide (key s = k)
  rw [Table.filter_key h, length_singleton] at hsplit
  rw [hsplit, Nat.add_comm]
  rfl

end Recency
