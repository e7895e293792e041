import Mathlib.Order.Basic

/-! # A cached record and the copies of it — what conditional writes keep

A record moves up in a partial order until it is closed.  A cache holds an
earlier version of it, and writers hold copies they have read from the
cache.  A writer asks for its copy to be the latest version, writes, and
then brings the cache up to what it wrote, provided the cache still has
its copy.

`Move` lists what may happen to the record and to the cache.  The point is
`Held`: a copy that is the latest version is also what the cache holds, so
the writer that closes the record finds its copy in the cache and can
evict it.  It survives every move (`Held.move`); what it rests on is that
a record is put in an empty cache only while it is open, and evicted only
when it is closed. -/

namespace Caching

variable {α : Type} [PartialOrder α]

/-- The last version of the record before it was closed, the cached version,
    and whether the record is closed. -/
structure View (α : Type) where
  latest : α
  cached : Option α
  closed : Bool

/-- The cache is never ahead. -/
def Sound (v : View α) : Prop := ∀ x, v.cached = some x → x ≤ v.latest

/-- What may happen to the record and to the cache. -/
inductive Move : View α → View α → Prop where
  | stay (v : View α) : Move v v
  | advance {v : View α} {x : α} (hopen : v.closed = false)
      (hlt : v.latest < x) : Move v { v with latest := x }
  | close (v : View α) : Move v { v with closed := true }
  | refresh {v : View α} {x y : α} (hx : v.cached = some x) (hlt : x < y)
      (hle : y ≤ v.latest) : Move v { v with cached := some y }
  | fill {v : View α} {y : α} (hopen : v.closed = false)
      (hnone : v.cached = none) (hle : y ≤ v.latest) :
      Move v { v with cached := some y }
  | evict {v : View α} (hclosed : v.closed = true) :
      Move v { v with cached := none }

/-- A copy read from the cache: an earlier version, and when it is the latest
    one the cache still has it. -/
structure Held (v : View α) (x : α) : Prop where
  le : x ≤ v.latest
  resident : v.cached = none → v.closed = true
  agrees : x = v.latest → ∀ y, v.cached = some y → y = v.latest

variable {v w : View α} {x : α}

/-- What is read from the cache is held. -/
theorem held_of_cached (hsound : Sound v) (hx : v.cached = some x) : Held v x where
  le := hsound x hx
  resident := by
    intro hnone
    rw [hnone] at hx
    cases hx
  agrees := by
    intro hlatest y hy
    rw [hy] at hx
    exact (Option.some.inj hx).trans hlatest

/-- The record never moves down. -/
theorem Move.latest_le (hm : Move v w) : v.latest ≤ w.latest := by
  cases hm with
  | advance _ hlt => exact le_of_lt hlt
  | _ => exact le_refl _

/-- A closed record stays as it is. -/
theorem Move.closed (hm : Move v w) (hclosed : v.closed = true) :
    w.closed = true ∧ w.latest = v.latest := by
  cases hm with
  | advance hopen _ =>
    rw [hclosed] at hopen
    cases hopen
  | close => exact ⟨rfl, rfl⟩
  | _ => exact ⟨hclosed, rfl⟩

theorem Sound.move (h : Sound v) (hm : Move v w) : Sound w := by
  cases hm with
  | stay | close => exact h
  | advance _ hlt => exact fun x hx => le_trans (h x hx) (le_of_lt hlt)
  | refresh _ _ hle | fill _ _ hle =>
    intro z hz
    exact Option.some.inj hz ▸ hle
  | evict => exact nofun

/-- **COPIES SURVIVE EVERY MOVE.** -/
theorem Held.move (h : Held v x) (hm : Move v w) : Held w x := by
  cases hm with
  | stay => exact h
  | @advance y hopen hlt =>
    refine ⟨le_trans h.le (le_of_lt hlt), h.resident, fun heq => ?_⟩
    -- an old copy is never the new version
    subst heq
    exact absurd h.le (not_le_of_gt hlt)
  | close => exact ⟨h.le, fun _ => rfl, h.agrees⟩
  | @refresh y z hy hlt hle =>
    refine ⟨h.le, nofun, fun heq => ?_⟩
    -- the cache had the latest version, and nothing is above that
    rw [h.agrees heq y hy] at hlt
    exact absurd hle (not_le_of_gt hlt)
  | fill hopen hnone _ =>
    have hclosed := h.resident hnone
    rw [hopen] at hclosed
    cases hclosed
  | evict hclosed => exact ⟨h.le, fun _ => hclosed, nofun⟩

/-- The writer that finds its copy to be the latest version finds it in the cache. -/
theorem Held.cached (h : Held v x) (hopen : v.closed = false)
    (hlatest : x = v.latest) : v.cached = some v.latest := by
  cases hc : v.cached with
  | none =>
    have hclosed := h.resident hc
    rw [hopen] at hclosed
    cases hclosed
  | some y => rw [h.agrees hlatest y hc]

/-- Once the record is closed and the cache has its last version, the cache only loses it. -/
theorem Move.cached_back (hm : Move v w) (hclosed : v.closed = true)
    (hlast : ∀ y, v.cached = some y → y = v.latest)
    (hx : w.cached = some x) : v.cached = some x := by
  cases hm with
  | advance hopen _ | fill hopen _ _ =>
    rw [hclosed] at hopen
    cases hopen
  | @refresh y z hy hlt hle =>
    rw [hlast y hy] at hlt
    exact absurd hle (not_le_of_gt hlt)
  | evict => cases hx
  | _ => exact hx

end Caching
