import Mathlib.Data.List.Basic

/-! # Bounded channels — a queue that refuses what does not fit

A channel of a fixed capacity, as an `mpsc` channel is one: a send waits
while the queue is full, a receive takes the oldest item.  The capacity is
part of the type and the bound part of the value, so a queue that is too
long cannot be built. -/

namespace Channels

/-- The items in order of arrival. -/
structure Bounded (α : Type) (capacity : Nat) where
  items : List α
  fits : items.length ≤ capacity

namespace Bounded

variable {α : Type} {capacity : Nat} {c d : Bounded α capacity} {a : α}

/-- A new channel. -/
def empty : Bounded α capacity := ⟨[], Nat.zero_le _⟩

/-- `none` while the channel is full. -/
def send (c : Bounded α capacity) (a : α) : Option (Bounded α capacity) :=
  if h : c.items.length < capacity then
    some ⟨c.items ++ [a], by rw [List.length_append]; exact h⟩
  else none

/-- `none` while the channel is empty. -/
def recv (c : Bounded α capacity) : Option (α × Bounded α capacity) :=
  match hc : c.items with
  | [] => none
  | a :: rest => some (a, ⟨rest, by
      have hfits := c.fits
      rw [hc] at hfits
      exact Nat.le_of_succ_le hfits⟩)

/-- A send goes through while there is room. -/
theorem send_of_lt (h : c.items.length < capacity) :
    ∃ d, c.send a = some d ∧ d.items = c.items ++ [a] := by
  rw [send, dif_pos h]
  exact ⟨_, rfl, rfl⟩

theorem send_eq_some (h : c.send a = some d) :
    c.items.length < capacity ∧ d.items = c.items ++ [a] := by
  rw [send] at h
  split at h
  · next hlt =>
    cases h
    exact ⟨hlt, rfl⟩
  · cases h

/-- A full channel is one nothing can be sent to. -/
theorem send_eq_none_iff : c.send a = none ↔ c.items.length = capacity := by
  rw [send]
  split
  · next hlt =>
    constructor
    · exact nofun
    · intro hfull
      exact absurd hfull (Nat.ne_of_lt hlt)
  · next hge =>
    exact iff_of_true rfl (Nat.le_antisymm c.fits (Nat.le_of_not_lt hge))

theorem length_send (h : c.send a = some d) : d.items.length = c.items.length + 1 := by
  rw [(send_eq_some h).2, List.length_append]
  rfl

theorem length_recv (h : c.recv = some (a, d)) : d.items.length + 1 = c.items.length := by
  rw [recv] at h
  split at h
  · cases h
  next hc =>
  cases h
  exact (congrArg List.length hc).symm

end Bounded

end Channels
