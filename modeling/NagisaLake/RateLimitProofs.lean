import NagisaLake.RecencyProofs
import NagisaLake.RunProofs
import Mathlib.Data.Rat.Floor
import Mathlib.Data.UInt

/-! # The rate limiter — bounded memory, bounded rate

Buckets of tokens lie in sixteen shards, chosen by the hash of scope and
key.  A shard that is full gives up the bucket that was accessed longest
ago; it finds it by the number of the access and the hash, so that stale
numbers are told from live ones even when hashes collide
(`limiter_bounded`).

A bucket lets no more through than its capacity and what flows in
(`allowed_le`); forgetting it when it has been idle changes nothing, for it
would be full.  The wait a refusal announces is cut off to whole seconds,
and it is long enough only if nothing was cut off (`retry_allowed_iff`). -/

namespace RateLimits

open KeyedTable Recency Runs List

structure Quota where
  capacity : ℚ
  refillPerSecond : ℚ

inductive Decision where
  | allow
  | deny (retryAfterSeconds : Nat)
  deriving DecidableEq

/-- `retry_after`, in seconds. -/
def Quota.retryAfter (q : Quota) (tokens : ℚ) : ℚ :=
  if q.refillPerSecond ≤ 0 then 3600 else max (1 - tokens) 0 / q.refillPerSecond

/-- Scope and key. -/
abbrev Name := String × String

structure Bucket where
  name : Name
  tokens : ℚ
  lastSeen : ℚ
  sequence : Nat
  deriving DecidableEq

/-- `saturating_duration_since`, in seconds. -/
def since (now earlier : ℚ) : ℚ := max (now - earlier) 0

def Bucket.consume (b : Bucket) (now : ℚ) (q : Quota) : Bucket × Decision :=
  let tokens := min (b.tokens + since now b.lastSeen * q.refillPerSecond) q.capacity
  if 1 ≤ tokens then ({ b with tokens := tokens - 1, lastSeen := now }, .allow)
  else ({ b with tokens := tokens, lastSeen := now },
    .deny (max ⌊q.retryAfter tokens⌋₊ 1))

structure Shard where
  buckets : List Bucket
  order : List (Nat × UInt64)
  nextSequence : Nat

def maxBucketsPerShard : Nat := 100000 / 16

def Shard.find (s : Shard) (name : Name) : Option Bucket :=
  s.buckets.find? fun b => b.name = name

section Hashed

variable (hash : Name → UInt64)

def slot (b : Bucket) : Nat × UInt64 := (b.sequence, hash b.name)

/-- The bucket with this number, among those with this hash. -/
def slotBucket (buckets : List Bucket) (s : Nat × UInt64) : Option Bucket :=
  buckets.find? fun b => slot hash b = s

def Shard.recordAccess (s : Shard) (sequence : Nat) (h : UInt64) : Shard :=
  let order := s.order ++ [(sequence, h)]
  { s with
    order := if maxBucketsPerShard * 2 < order.length then
        order.filter fun x => (slotBucket hash s.buckets x).isSome
      else order }

def Shard.evictOldest (s : Shard) : Shard :=
  match popLive (slotBucket hash s.buckets) s.order with
  | (some b, order) => { s with buckets := s.buckets.erase b, order := order }
  | (none, order) => { s with order := order }

/-- The bucket of the caller, found or new, and the shard without it. -/
def Shard.take (s : Shard) (now : ℚ) (name : Name) (q : Quota) : Bucket × Shard :=
  match s.find name with
  | some b => ({ b with sequence := s.nextSequence },
      { s with buckets := s.buckets.erase b })
  | none => (⟨name, q.capacity, now, s.nextSequence⟩,
      if maxBucketsPerShard ≤ s.buckets.length then s.evictOldest hash else s)

def Shard.check (s : Shard) (now : ℚ) (name : Name) (q : Quota) : Shard × Decision :=
  let (b, rest) := s.take hash now name q
  let (b, decision) := b.consume now q
  (({ rest with
      buckets := b :: rest.buckets
      nextSequence := (s.nextSequence + 1) % 2 ^ 64 } : Shard).recordAccess hash
    s.nextSequence (hash name), decision)

end Hashed

def Shard.reset (s : Shard) (name : Name) : Shard :=
  match s.find name with
  | some b => { s with buckets := s.buckets.erase b }
  | none => s

/-- `evict_idle`, under the lock of one shard. -/
def Shard.evictIdle (s : Shard) (now : ℚ) : Shard :=
  { s with buckets := s.buckets.filter fun b => since now b.lastSeen < 3600 }

structure RateLimiter where
  enabled : Bool
  shards : Fin 16 → Shard

def shardFor (h : UInt64) : Fin 16 := Fin.ofNat 16 (h >>> 32).toNat

/-- Work under the lock of a shard. -/
def RateLimiter.lock (l : RateLimiter) (i : Fin 16) (s : Shard) : RateLimiter :=
  { l with shards := Function.update l.shards i s }

/-- What is done, and under which lock; `evict_idle` takes one shard after the
    other, with the time it read at first. -/
inductive Op where
  | check (name : Name) (q : Quota)
  | reset (name : Name)
  | evictIdle (i : Fin 16) (now : ℚ)

/-- The limiter, the time of the last call, and the checks with their outcome, the latest first. -/
structure World where
  limiter : RateLimiter
  clock : ℚ
  log : List (Name × Decision)

variable (hash : Name → UInt64)

def RateLimiter.home (l : RateLimiter) (name : Name) : Shard :=
  l.shards (shardFor (hash name))

def RateLimiter.check (l : RateLimiter) (now : ℚ) (name : Name) (q : Quota) :
    RateLimiter × Decision :=
  if l.enabled then
    let r := (l.home hash name).check hash now name q
    (l.lock (shardFor (hash name)) r.1, r.2)
  else (l, .allow)

def RateLimiter.reset (l : RateLimiter) (name : Name) : RateLimiter :=
  if l.enabled then l.lock (shardFor (hash name)) ((l.home hash name).reset name)
  else l

def RateLimiter.evictIdle (l : RateLimiter) (i : Fin 16) (now : ℚ) : RateLimiter :=
  if l.enabled then l.lock i ((l.shards i).evictIdle now) else l

def step (w : World) : ℚ × Op → Option World
  | (now, .check name q) =>
      let r := w.limiter.check hash now name q
      some ⟨r.1, now, if w.limiter.enabled then (name, r.2) :: w.log else w.log⟩
  | (now, .reset name) => some { w with
      limiter := w.limiter.reset hash name
      clock := now }
  | (now, .evictIdle i t) => some { w with
      limiter := w.limiter.evictIdle i t
      clock := now }

def start (enabled : Bool) (clock : ℚ) : World :=
  ⟨⟨enabled, fun _ => ⟨[], [], 0⟩⟩, clock, []⟩

/-- How many checks ago a key was seen. -/
def age (log : List (Name × Decision)) (name : Name) : Nat :=
  (log.map Prod.fst).idxOf name

/-- What is asked of the memory. -/
structure Bounded (w : World) : Prop where
  buckets_le : ∀ i, (w.limiter.shards i).buckets.length ≤ maxBucketsPerShard
  order_le : ∀ i, (w.limiter.shards i).order.length ≤ 2 * maxBucketsPerShard
  unique : ∀ i, ((w.limiter.shards i).buckets.map Bucket.name).Nodup
  home : ∀ i, ∀ b ∈ (w.limiter.shards i).buckets, shardFor (hash b.name) = i
  queued : ∀ i, ∀ b ∈ (w.limiter.shards i).buckets,
    (b.sequence, hash b.name) ∈ (w.limiter.shards i).order
  hit : ∀ now name q b, (w.limiter.home hash name).find name = some b → w.limiter.enabled = true →
      ∃ b', ((w.limiter.check hash now name q).1.home hash name).buckets
        = b' :: (w.limiter.home hash name).buckets.erase b ∧ b'.name = b.name
  evicts : ∀ now name q, (w.limiter.home hash name).find name = none → w.limiter.enabled = true →
    (w.limiter.home hash name).buckets.length = maxBucketsPerShard →
      ∃ b', ∃ v ∈ (w.limiter.home hash name).buckets,
        ((w.limiter.check hash now name q).1.home hash name).buckets
          = b' :: (w.limiter.home hash name).buckets.erase v
        ∧ ∀ b ∈ (w.limiter.home hash name).buckets, b ≠ v → age w.log b.name < age w.log v.name
  others : ∀ now name q i, i ≠ shardFor (hash name) →
    (w.limiter.check hash now name q).1.shards i = w.limiter.shards i

/-! ## One shard -/

variable {hash} {s : Shard} {name : Name} {b : Bucket} {q : Quota} {now : ℚ}

theorem slotBucket_eq_some {n : Nat} {order : List (Nat × UInt64)}
    (h : Ordered (slot hash) s.buckets order n) (x : Nat × UInt64) (b : Bucket) :
    slotBucket hash s.buckets x = some b ↔ b ∈ s.buckets ∧ slot hash b = x :=
  Table.find?_eq_some_iff (t := ⟨s.buckets, h.distinct⟩)

theorem find_eq_some (h : (s.buckets.map Bucket.name).Nodup) :
    s.find name = some b ↔ b ∈ s.buckets ∧ b.name = name :=
  Table.find?_eq_some_iff (t := ⟨s.buckets, h⟩)

theorem name_of_find (h : s.find name = some b) : b ∈ s.buckets ∧ b.name = name :=
  ⟨mem_of_find?_eq_some h, of_decide_eq_true (find?_some h :)⟩

theorem consume_same (b : Bucket) (now : ℚ) (q : Quota) : (b.consume now q).1.name = b.name
      ∧ (b.consume now q).1.sequence = b.sequence := by
  rw [Bucket.consume]
  split <;> exact ⟨rfl, rfl⟩

theorem evictOldest_sublist (s : Shard) : (s.evictOldest hash).buckets.Sublist s.buckets := by
  rw [Shard.evictOldest]
  split
  · exact erase_sublist
  · exact List.Sublist.refl _

/-- The bucket of the caller, and others. -/
theorem take_spec (hash : Name → UInt64) (h : (s.buckets.map Bucket.name).Nodup)
    (now : ℚ) (name : Name) (q : Quota) :
    (s.take hash now name q).1.name = name ∧ (s.take hash now name q).1.sequence = s.nextSequence
      ∧ (s.take hash now name q).2.buckets.Sublist s.buckets
      ∧ ∀ b ∈ (s.take hash now name q).2.buckets, b.name ≠ name := by
  rw [Shard.take]
  cases hfind : s.find name with
  | some b =>
    obtain ⟨hb, hname⟩ := name_of_find hfind
    refine ⟨hname, rfl, erase_sublist, fun b' hb' heq => ?_⟩
    obtain ⟨hne, hb'⟩ := h.of_map.mem_erase_iff.mp hb'
    exact hne (inj_on_of_nodup_map h hb' hb (heq.trans hname.symm))
  | none =>
    have hnew : ∀ b ∈ s.buckets, b.name ≠ name := by
      simpa [Shard.find] using hfind
    dsimp only
    split
    · exact ⟨rfl, rfl, evictOldest_sublist s, fun b hb =>
        hnew b ((evictOldest_sublist s).subset hb)⟩
    · exact ⟨rfl, rfl, List.Sublist.refl _, hnew⟩

theorem check_buckets (s : Shard) (now : ℚ) (name : Name) (q : Quota) :
    (s.check hash now name q).1.buckets = ((s.take hash now name q).1.consume now q).1
        :: (s.take hash now name q).2.buckets := rfl

/-- Names stay unique. -/
theorem unique_check (h : (s.buckets.map Bucket.name).Nodup) :
    ((s.check hash now name q).1.buckets.map Bucket.name).Nodup := by
  obtain ⟨hname, -, hsub, hother⟩ := take_spec hash h now name q
  rw [check_buckets, map_cons, (consume_same _ now q).1, hname]
  refine nodup_cons.mpr ⟨fun hmem => ?_, h.sublist (hsub.map _)⟩
  obtain ⟨b, hb, heq⟩ := mem_map.mp hmem
  exact hother b hb heq

/-- **THE LEAST RECENTLY USED** bucket goes. -/
theorem evictOldest_spec (h : Ordered (slot hash) s.buckets s.order s.nextSequence)
    (hne : s.buckets ≠ []) :
    ∃ v ∈ s.buckets, (s.evictOldest hash).buckets = s.buckets.erase v
      ∧ (∀ b ∈ s.buckets, b ≠ v → v.sequence < b.sequence)
      ∧ Ordered (slot hash) (s.evictOldest hash).buckets (s.evictOldest hash).order s.nextSequence
      ∧ (s.evictOldest hash).order.length ≤ s.order.length := by
  obtain ⟨v, order, hpop, hv, hold, hrest⟩ :=
    popLive_spec (slotBucket_eq_some h) _ h hne
  have hlen := popLive_length (slotBucket hash s.buckets) s.order
  rw [Shard.evictOldest]
  rw [hpop] at hlen ⊢
  refine ⟨v, hv, rfl, fun b hb hne => (hold b hb).resolve_left hne, ?_, hlen⟩
  exact hrest _ erase_sublist h.distinct.of_map.not_mem_erase

/-- A shard that holds the buckets of keys with its hashes; the log lists the
    checks, the latest first. -/
structure Fine (hash : Name → UInt64) (i : Fin 16) (log : List (Name × Decision))
    (s : Shard) : Prop where
  unique : (s.buckets.map Bucket.name).Nodup
  home : ∀ b ∈ s.buckets, shardFor (hash b.name) = i
  ordered : Ordered (slot hash) s.buckets s.order s.nextSequence
  next_le : s.nextSequence ≤ log.length
  buckets_le : s.buckets.length ≤ maxBucketsPerShard
  order_le : s.order.length ≤ 2 * maxBucketsPerShard
  recent : ∀ b ∈ s.buckets, ∀ b' ∈ s.buckets, b.sequence < b'.sequence →
    age log b'.name < age log b.name

variable {i : Fin 16} {log : List (Name × Decision)} {d : Decision}

theorem age_cons_self (log : List (Name × Decision)) (name : Name) (d : Decision) :
    age ((name, d) :: log) name = 0 := by
  simp [age]

theorem age_cons_of_ne {other : Name} (hne : name ≠ other) :
    age ((name, d) :: log) other = age log other + 1 := by
  simp [age, idxOf_cons_ne _ hne]

section

variable (h : Fine hash i log s)
include h

/-- Buckets go: by `reset` or `evict_idle`. -/
theorem Fine.shrink {buckets : List Bucket} (hsub : buckets.Sublist s.buckets) :
    Fine hash i log { s with buckets := buckets } :=
  { h with
    unique := h.unique.sublist (hsub.map _)
    home := fun b hb => h.home b (hsub.subset hb)
    ordered := h.ordered.remove hsub
    buckets_le := hsub.length_le.trans h.buckets_le
    recent := fun b hb b' hb' => h.recent b (hsub.subset hb) b' (hsub.subset hb') }

/-- A key of another shard is checked. -/
theorem Fine.other (hne : shardFor (hash name) ≠ i) : Fine hash i ((name, d) :: log) s :=
  { h with
    next_le := Nat.le_succ_of_le h.next_le
    recent := by
      intro b hb b' hb' hlt
      have hname : ∀ x ∈ s.buckets, name ≠ x.name := by
        rintro x hx rfl
        exact hne (h.home x hx)
      rw [age_cons_of_ne (hname b hb), age_cons_of_ne (hname b' hb')]
      exact Nat.succ_lt_succ (h.recent b hb b' hb' hlt) }

/-- There is room for the bucket of the caller. -/
theorem Fine.take (now : ℚ) (name : Name) (q : Quota) :
    Ordered (slot hash) (s.take hash now name q).2.buckets
        (s.take hash now name q).2.order s.nextSequence
      ∧ (s.take hash now name q).2.order.length ≤ 2 * maxBucketsPerShard
      ∧ (s.take hash now name q).2.buckets.length < maxBucketsPerShard := by
  rw [Shard.take]
  cases hfind : s.find name with
  | some b =>
    have hb := (name_of_find hfind).1
    refine ⟨h.ordered.remove erase_sublist, h.order_le, ?_⟩
    have hpos := length_pos_of_mem hb
    have hle := h.buckets_le
    rw [length_erase_of_mem hb]
    omega
  | none =>
    dsimp only
    split
    · next hfull =>
      have hne : s.buckets ≠ [] := by
        rintro hnil
        rw [hnil] at hfull
        exact absurd hfull (by decide)
      obtain ⟨v, hv, hgone, -, hord, hlen⟩ := evictOldest_spec h.ordered hne
      refine ⟨hord, hlen.trans h.order_le, ?_⟩
      have hpos := length_pos_of_mem hv
      have hle := h.buckets_le
      rw [hgone, length_erase_of_mem hv]
      omega
    · next hroom => exact ⟨h.ordered, h.order_le, Nat.not_le.mp hroom⟩

theorem Fine.check (hi : shardFor (hash name) = i) (hfew : ((name, d) :: log).length < 2 ^ 64) :
    Fine hash i ((name, d) :: log) (s.check hash now name q).1 := by
  obtain ⟨hname, hseq, hsub, hother⟩ := take_spec hash h.unique now name q
  obtain ⟨hord, hlen, hroom⟩ := h.take now name q
  obtain ⟨hsame, hnum⟩ := consume_same (s.take hash now name q).1 now q
  rw [hname] at hsame
  rw [hseq] at hnum
  have hnext : (s.nextSequence + 1) % 2 ^ 64 = s.nextSequence + 1 :=
    Nat.mod_eq_of_lt (Nat.lt_of_le_of_lt (Nat.succ_le_succ h.next_le) hfew)
  have hslot : slot hash ((s.take hash now name q).1.consume now q).1
      = (s.nextSequence, hash name) := by
    rw [slot, hsame, hnum]
  have hpush := hord.push (r := ((s.take hash now name q).1.consume now q).1) hnum
  rw [hslot] at hpush
  obtain ⟨hcompact, hcompact_le⟩ := hpush.compact
    (slotBucket_eq_some (s := (s.check hash now name q).1) hpush)
    (Nat.le_of_eq (Nat.mul_comm maxBucketsPerShard 2)) (by
      rw [check_buckets, length_cons]
      omega)
  refine ⟨unique_check h.unique, ?_, ?_, ?_, ?_, hcompact_le, ?_⟩
  · rw [check_buckets]
    intro b hb
    rcases mem_cons.mp hb with rfl | hb
    · rw [hsame]
      exact hi
    · exact h.home b (hsub.subset hb)
  · show Ordered _ _ _ ((s.nextSequence + 1) % 2 ^ 64)
    rw [hnext]
    exact hcompact
  · show (s.nextSequence + 1) % 2 ^ 64 ≤ log.length + 1
    rw [hnext]
    exact Nat.succ_le_succ h.next_le
  · rw [check_buckets, length_cons]
    exact hroom
  · rw [check_buckets]
    intro b hb b' hb' hlt
    have hold : ∀ x ∈ (s.take hash now name q).2.buckets, x.sequence < s.nextSequence := fun x hx =>
      h.ordered.below _ (h.ordered.queued x (hsub.subset hx))
    rcases mem_cons.mp hb with rfl | hb
    · rcases mem_cons.mp hb' with rfl | hb'
      · exact absurd hlt (Nat.lt_irrefl _)
      · rw [hnum] at hlt
        exact absurd (hold b' hb') (Nat.lt_asymm hlt)
    · rw [age_cons_of_ne (hother b hb).symm]
      rcases mem_cons.mp hb' with rfl | hb'
      · rw [hsame, age_cons_self]
        exact Nat.succ_pos _
      rw [age_cons_of_ne (hother b' hb').symm]
      exact Nat.succ_lt_succ (h.recent b (hsub.subset hb) b' (hsub.subset hb') hlt)

end

/-! ## The limiter -/

variable {w w' : World} {a : ℚ × Op}

theorem lock_self (l : RateLimiter) (i : Fin 16) (s : Shard) : (l.lock i s).shards i = s := by
  simp [RateLimiter.lock]

theorem lock_other (l : RateLimiter) {i j : Fin 16} (s : Shard) (hne : j ≠ i) :
    (l.lock i s).shards j = l.shards j := by
  simp [RateLimiter.lock, hne]

theorem home_check (l : RateLimiter) (henabled : l.enabled = true) :
    (l.check hash now name q).1.home hash name = ((l.home hash name).check hash now name q).1 := by
  rw [RateLimiter.check, if_pos henabled]
  exact lock_self ..

def Inv (hash : Name → UInt64) (w : World) : Prop :=
  ∀ i, Fine hash i w.log (w.limiter.shards i)

/-- Buckets go, and nothing else changes. -/
def Shrinks (s t : Shard) : Prop :=
  ∃ buckets, buckets.Sublist s.buckets ∧ t = { s with buckets := buckets }

theorem Shrinks.refl (s : Shard) : Shrinks s s := ⟨_, List.Sublist.refl _, rfl⟩

theorem shrinks_reset (s : Shard) (name : Name) : Shrinks s (s.reset name) := by
  rw [Shard.reset]
  split
  · exact ⟨_, erase_sublist, rfl⟩
  · exact .refl s

theorem shrinks_lock {l : RateLimiter} (h : Shrinks (l.shards i) s) (j : Fin 16) :
    Shrinks (l.shards j) ((l.lock i s).shards j) := by
  by_cases hj : j = i
  · rw [hj, lock_self]
    exact h
  · rw [lock_other _ _ hj]
    exact .refl _

/-- What a call does to a shard: it checks a key there, or takes buckets. -/
theorem shard_step (hs : step hash w a = some w') (j : Fin 16) :
    (Shrinks (w.limiter.shards j) (w'.limiter.shards j)
      ∧ (w'.log = w.log ∨ ∃ n d, shardFor (hash n) ≠ j ∧ w'.log = (n, d) :: w.log))
    ∨ ∃ n q d, a.2 = .check n q ∧ shardFor (hash n) = j
      ∧ w'.limiter.shards j = ((w.limiter.shards j).check hash a.1 n q).1
      ∧ w'.log = (n, d) :: w.log := by
  obtain ⟨now, op⟩ := a
  cases op with cases hs
  | check n q =>
    by_cases hen : w.limiter.enabled
    · simp only [RateLimiter.check, hen, if_true]
      by_cases hj : shardFor (hash n) = j
      · subst hj
        exact .inr ⟨n, q, _, rfl, rfl, lock_self .., rfl⟩
      · refine .inl ⟨?_, .inr ⟨n, _, hj, rfl⟩⟩
        rw [lock_other _ _ (Ne.symm hj)]
        exact .refl _
    · simp only [RateLimiter.check, hen]
      exact .inl ⟨.refl _, .inl rfl⟩
  | reset n =>
    refine .inl ⟨?_, .inl rfl⟩
    show Shrinks _ ((w.limiter.reset hash n).shards j)
    rw [RateLimiter.reset]
    split
    · exact shrinks_lock (shrinks_reset _ n) j
    · exact .refl _
  | evictIdle i t =>
    refine .inl ⟨?_, .inl rfl⟩
    show Shrinks _ ((w.limiter.evictIdle i t).shards j)
    rw [RateLimiter.evictIdle]
    split
    · exact shrinks_lock ⟨_, filter_sublist, rfl⟩ j
    · exact .refl _

theorem inv_step (h : Inv hash w) (hfew : w'.log.length < 2 ^ 64)
    (hs : step hash w a = some w') : Inv hash w' := by
  intro j
  rcases shard_step hs j with ⟨⟨buckets, hsub, hshard⟩, hlog | ⟨n, d, hne, hlog⟩⟩
    | ⟨n, q, d, -, hj, hshard, hlog⟩
  · rw [hshard, hlog]
    exact (h j).shrink hsub
  · rw [hshard, hlog]
    exact ((h j).shrink hsub).other hne
  rw [hlog] at hfew
  rw [hshard, hlog]
  exact (h j).check hj hfew

theorem log_step (hs : step hash w a = some w') : w.log.length ≤ w'.log.length := by
  obtain ⟨now, op⟩ := a
  cases op with
  | check name q =>
    cases hs
    split
    · exact Nat.le_succ _
    · exact Nat.le_refl _
  | _ =>
    cases hs
    exact Nat.le_refl _

theorem Inv.bounded (h : Inv hash w) : Bounded hash w where
  buckets_le := fun i => (h i).buckets_le
  order_le := fun i => (h i).order_le
  unique := fun i => (h i).unique
  home := fun i => (h i).home
  queued := fun i => (h i).ordered.queued
  hit := by
    intro now name q b hfind henabled
    rw [home_check _ henabled, check_buckets, Shard.take, hfind]
    exact ⟨_, rfl, (consume_same _ now q).1⟩
  evicts := by
    intro now name q hfind henabled hfull
    have hfine := h (shardFor (hash name))
    have hne : (w.limiter.home hash name).buckets ≠ [] := by
      intro hnil
      rw [hnil] at hfull
      exact absurd hfull (by decide)
    obtain ⟨v, hv, hgone, hold, -⟩ := evictOldest_spec hfine.ordered hne
    have htake : ((w.limiter.home hash name).take hash now name q).2
        = (w.limiter.home hash name).evictOldest hash := by
      rw [Shard.take, hfind]
      exact if_pos (Nat.le_of_eq hfull.symm)
    rw [home_check _ henabled, check_buckets, htake]
    exact ⟨_, v, hv, congrArg _ hgone, fun b hb hne =>
      hfine.recent v hv b hb (hold b hb hne)⟩
  others := by
    intro now name q i hne
    rw [RateLimiter.check]
    split
    · exact lock_other _ _ hne
    · rfl

/-- **BOUNDED, AND THE LEAST RECENTLY USED GOES**: after every sequence of
    calls with fewer than `2 ^ 64` checks, whatever the hashes. -/
theorem limiter_bounded {enabled : Bool} {clock : ℚ} {ops : List (ℚ × Op)}
    (hrun : run (step hash) (start enabled clock) ops = some w)
    (hfew : w.log.length < 2 ^ 64) : Bounded hash w := by
  refine Inv.bounded (inv_run (I := fun w => w.log.length < 2 ^ 64 → Inv hash w)
    (fun w a w' h hs hfew => ?_) (fun _ i => ?_) hrun hfew)
  · exact inv_step (h (Nat.lt_of_le_of_lt (log_step hs) hfew)) hfew hs
  · exact ⟨.nil, nofun, ordered_nil, Nat.le_refl 0, Nat.zero_le _, Nat.zero_le _, nofun⟩

/-- All keys have the same hash. -/
theorem limiter_bounded_colliding : ∃ w,
    run (step fun _ => 0) (start true 0) [(0, .check ("login", "a") ⟨1, 1⟩),
      (1, .check ("login", "b") ⟨1, 1⟩)] = some w
      ∧ (w.limiter.shards 0).buckets.length = 2 ∧ Bounded (fun _ => 0) w := by
  have hplay : ∃ w, run (step fun _ => 0) (start true 0)
      [(0, .check ("login", "a") ⟨1, 1⟩), (1, .check ("login", "b") ⟨1, 1⟩)] = some w
      ∧ (w.limiter.shards 0).buckets.length = 2 ∧ w.log.length < 2 ^ 64 :=
    ⟨_, rfl, by decide +kernel, by decide +kernel⟩
  obtain ⟨w, hrun, htwo, hfew⟩ := hplay
  exact ⟨w, hrun, htwo, limiter_bounded hrun hfew⟩

/-! ## The rate -/

/-- The checks of a key that were allowed. -/
def granted (name : Name) (log : List (Name × Decision)) : Nat :=
  log.countP fun x => decide (x = (name, .allow))

/-- What a bucket holds at a time; a key without a bucket would get a full one. -/
def tokensAt (q : Quota) (now : ℚ) : Option Bucket → ℚ
  | none => q.capacity
  | some b => min (b.tokens + since now b.lastSeen * q.refillPerSecond) q.capacity

/-- The clock does not go back, and the key has one quota. -/
def Timely (name : Name) (q : Quota) (w : World) (a : ℚ × Op) : Prop :=
  w.clock ≤ a.1 ∧ match a.2 with
    | .check n q' => n = name → q' = q
    | .reset _ => True
    | .evictIdle _ t => t ≤ a.1

/-- The key is not reset, and no check of another one takes its bucket. -/
def Spared (hash : Name → UInt64) (name : Name) (w : World) (a : ℚ × Op) : Prop :=
  match a.2 with
  | .check n q' => n ≠ name → (w.limiter.home hash name).find name ≠ none →
      ((w.limiter.check hash a.1 n q').1.home hash name).find name ≠ none
  | .reset n => n ≠ name
  | .evictIdle _ _ => True

/-- What the bound rests on. -/
structure Sound (hash : Name → UInt64) (name : Name) (w : World) : Prop where
  enabled : w.limiter.enabled = true
  unique : ∀ i, ((w.limiter.shards i).buckets.map Bucket.name).Nodup
  tokens : ∀ b, (w.limiter.home hash name).find name = some b → 0 ≤ b.tokens
  seen : ∀ b, (w.limiter.home hash name).find name = some b → b.lastSeen ≤ w.clock

theorem since_self (now : ℚ) : since now now = 0 := by
  simp [since]

theorem consume_spec (b : Bucket) (now : ℚ) (q : Quota) : (b.consume now q).1.lastSeen = now
      ∧ (1 ≤ tokensAt q now (some b) ∧ (b.consume now q).2 = .allow
          ∧ (b.consume now q).1.tokens = tokensAt q now (some b) - 1
        ∨ tokensAt q now (some b) < 1 ∧ (b.consume now q).2
            = .deny (max ⌊q.retryAfter (tokensAt q now (some b))⌋₊ 1)
          ∧ (b.consume now q).1.tokens = tokensAt q now (some b)) := by
  rw [Bucket.consume]
  split
  · next hone => exact ⟨rfl, .inl ⟨hone, rfl, rfl⟩⟩
  · next hnone => exact ⟨rfl, .inr ⟨not_le.mp hnone, rfl, rfl⟩⟩

/-- **ONE CHECK**: the key has a bucket then, and pays with a token if there is one. -/
theorem check_own (hash : Name → UInt64) (l : RateLimiter)
    (henabled : l.enabled = true) (now : ℚ) (name : Name) (q : Quota) {n : ℚ}
    (hn : tokensAt q now ((l.home hash name).find name) = n) :
    ∃ b, ((l.check hash now name q).1.home hash name).find name = some b ∧ b.lastSeen = now
      ∧ (1 ≤ n ∧ (l.check hash now name q).2 = .allow ∧ b.tokens = n - 1
        ∨ n < 1 ∧ (l.check hash now name q).2 = .deny (max ⌊q.retryAfter n⌋₊ 1)
          ∧ b.tokens = n) := by
  have htake : ((l.home hash name).take hash now name q).1.name = name
      ∧ tokensAt q now (some ((l.home hash name).take hash now name q).1) = n := by
    rw [← hn, Shard.take]
    cases hfind : (l.home hash name).find name with
    | some b => exact ⟨(name_of_find hfind).2, rfl⟩
    | none => simp [tokensAt, since_self]
  obtain ⟨hseen, hcases⟩ :=
    consume_spec ((l.home hash name).take hash now name q).1 now q
  rw [htake.2] at hcases
  rw [home_check l henabled, RateLimiter.check, if_pos henabled]
  refine ⟨_, ?_, hseen, hcases⟩
  rw [Shard.find, check_buckets, find?_cons_of_pos]
  exact decide_eq_true ((consume_same _ now q).1.trans htake.1)

theorem unique_step (h : ∀ i, ((w.limiter.shards i).buckets.map Bucket.name).Nodup)
    (hs : step hash w a = some w') (j : Fin 16) :
    ((w'.limiter.shards j).buckets.map Bucket.name).Nodup := by
  rcases shard_step hs j with ⟨⟨buckets, hsub, hshard⟩, -⟩ | ⟨n, q, d, -, -, hshard, -⟩
  · rw [hshard]
    exact (h j).sublist (hsub.map _)
  · rw [hshard]
    exact unique_check (h j)

/-- A step that is not a check of the key gives it no bucket. -/
theorem find_step (h : ∀ i, ((w.limiter.shards i).buckets.map Bucket.name).Nodup)
    (hne : ∀ q, a.2 ≠ .check name q) (hs : step hash w a = some w')
    (hb : (w'.limiter.home hash name).find name = some b) :
    (w.limiter.home hash name).find name = some b := by
  obtain ⟨hmem, hname⟩ := name_of_find hb
  refine (find_eq_some (h _)).mpr ⟨?_, hname⟩
  rw [RateLimiter.home] at hmem
  rcases shard_step hs (shardFor (hash name)) with ⟨⟨buckets, hsub, hshard⟩, -⟩
    | ⟨n, q, d, hop, hn, hshard, -⟩
  · rw [hshard] at hmem
    exact hsub.subset hmem
  rw [hshard, check_buckets] at hmem
  obtain ⟨hown, -, hsub, -⟩ :=
    take_spec hash (h (shardFor (hash name))) a.1 n q
  rcases mem_cons.mp hmem with rfl | hmem
  · rw [(consume_same _ a.1 q).1, hown] at hname
    exact absurd (hname ▸ hop) (hne q)
  · exact hsub.subset hmem

theorem tokensAt_le (q : Quota) (now : ℚ) (o : Option Bucket) : tokensAt q now o ≤ q.capacity := by
  cases o with
  | none => exact le_refl _
  | some b => exact min_le_right _ _

theorem since_nonneg (now earlier : ℚ) : 0 ≤ since now earlier := le_max_right _ _

theorem tokensAt_nonneg (now : ℚ) {o : Option Bucket} (hc : 1 ≤ q.capacity)
    (hr : 0 < q.refillPerSecond) (ho : ∀ b, o = some b → 0 ≤ b.tokens) :
    0 ≤ tokensAt q now o := by
  cases o with
  | none => exact zero_le_one.trans hc
  | some b =>
    have hflow := mul_nonneg (since_nonneg now b.lastSeen) hr.le
    exact le_min (add_nonneg (ho b rfl) hflow) (zero_le_one.trans hc)

/-- What flows in. -/
theorem tokensAt_later {o : Option Bucket} {t : ℚ} (hr : 0 < q.refillPerSecond)
    (ho : ∀ b, o = some b → b.lastSeen ≤ t) (ht : t ≤ now) :
    tokensAt q now o ≤ tokensAt q t o + q.refillPerSecond * (now - t) := by
  have hflow := mul_nonneg hr.le (sub_nonneg.mpr ht)
  cases o with
  | none => exact le_add_of_nonneg_right hflow
  | some b =>
    have hb := ho b rfl
    have hnow : since now b.lastSeen = now - b.lastSeen :=
      max_eq_left (sub_nonneg.mpr (hb.trans ht))
    have ht' : since t b.lastSeen = t - b.lastSeen := max_eq_left (sub_nonneg.mpr hb)
    rw [tokensAt, tokensAt, hnow, ht', ← min_add_add_right]
    refine min_le_min (le_of_eq ?_) (le_add_of_nonneg_right hflow)
    ring

theorem enabled_step (hs : step hash w a = some w') :
    w'.limiter.enabled = w.limiter.enabled ∧ w'.clock = a.1 := by
  obtain ⟨now, op⟩ := a
  cases op with cases hs
  | check n q =>
    by_cases h : w.limiter.enabled <;> simp [RateLimiter.check, h, RateLimiter.lock]
  | reset n =>
    by_cases h : w.limiter.enabled <;> simp [RateLimiter.reset, h, RateLimiter.lock]
  | evictIdle i t =>
    by_cases h : w.limiter.enabled <;>
      simp [RateLimiter.evictIdle, h, RateLimiter.lock]

theorem sound_step (hc : 1 ≤ q.capacity) (hr : 0 < q.refillPerSecond)
    (h : Sound hash name w) (ht : Timely name q w a)
    (hs : step hash w a = some w') : Sound hash name w' := by
  obtain ⟨hen, hclock⟩ := enabled_step hs
  suffices hb : ∀ b, (w'.limiter.home hash name).find name = some b →
      0 ≤ b.tokens ∧ b.lastSeen ≤ a.1 from
    ⟨hen.trans h.enabled, unique_step h.unique hs, fun b hb' => (hb b hb').1,
      fun b hb' => hclock ▸ (hb b hb').2⟩
  intro b hb
  by_cases hown : ∃ q', a.2 = .check name q'
  · obtain ⟨now, op⟩ := a
    obtain ⟨q', rfl⟩ := hown
    obtain rfl : q' = q := ht.2 rfl
    have hpos := tokensAt_nonneg now hc hr h.tokens
    obtain ⟨b', hb', hseen, hcases⟩ :=
      check_own hash w.limiter h.enabled now name q' rfl
    cases hs
    cases hb.symm.trans hb'
    refine ⟨?_, hseen.le⟩
    rcases hcases with ⟨hone, -, htokens⟩ | ⟨-, -, htokens⟩
    · rw [htokens]
      exact sub_nonneg.mpr hone
    · rw [htokens]
      exact hpos
  · have hold := find_step h.unique (fun q' heq => hown ⟨q', heq⟩) hs hb
    exact ⟨h.tokens b hold, (h.seen b hold).trans ht.1⟩

/-- An idle bucket is as good as none. -/
theorem tokensAt_idle {t : ℚ} (hidle : q.capacity ≤ 3600 * q.refillPerSecond)
    (hr : 0 < q.refillPerSecond) (hb : 0 ≤ b.tokens) (ht : t ≤ now)
    (hlong : 3600 ≤ since t b.lastSeen) :
    tokensAt q now (some b) = q.capacity := by
  have hmore : 3600 ≤ since now b.lastSeen :=
    hlong.trans (max_le_max (sub_le_sub_right ht _) (le_refl 0))
  have hflow := mul_le_mul_of_nonneg_right hmore hr.le
  exact min_eq_right (by linarith)

theorem mem_reset {n : Name} (hb : b ∈ s.buckets) (hne : n ≠ b.name) : b ∈ (s.reset n).buckets := by
  rw [Shard.reset]
  split
  · next b' hfind =>
    refine (mem_erase_of_ne ?_).mpr hb
    rintro rfl
    exact hne (name_of_find hfind).2.symm
  · exact hb

theorem mem_lock {l : RateLimiter} {j : Fin 16} (hb : b ∈ (l.shards j).buckets)
    (hs : i = j → b ∈ s.buckets) : b ∈ ((l.lock i s).shards j).buckets := by
  by_cases hj : j = i
  · rw [hj, lock_self]
    exact hs hj.symm
  · rw [lock_other _ _ hj]
    exact hb

/-- **ONE STEP**: what is granted is paid for. -/
theorem granted_step (hidle : q.capacity ≤ 3600 * q.refillPerSecond)
    (hr : 0 < q.refillPerSecond) (h : Sound hash name w) (ht : Timely name q w a)
    (hspared : Spared hash name w a) (hs : step hash w a = some w') :
    (granted name w'.log : ℚ) + tokensAt q a.1 ((w'.limiter.home hash name).find name)
      ≤ granted name w.log + tokensAt q a.1 ((w.limiter.home hash name).find name) := by
  obtain ⟨now, op⟩ := a
  by_cases hown : ∃ q', op = .check name q'
  · obtain ⟨q', rfl⟩ := hown
    obtain rfl : q' = q := ht.2 rfl
    obtain ⟨b, hb, hseen, hcases⟩ := check_own hash w.limiter h.enabled now name q' rfl
    cases hs
    have hleft : tokensAt q' now (some b) = min b.tokens q'.capacity := by
      rw [tokensAt, hseen, since_self, zero_mul, add_zero]
    simp only [h.enabled, if_true]
    rw [hb, hleft]
    rcases hcases with ⟨-, hallow, htokens⟩ | ⟨-, hdeny, htokens⟩
    · rw [hallow, granted, countP_cons_of_pos (by simp), ← granted]
      push_cast
      linarith [min_le_left b.tokens q'.capacity]
    · rw [hdeny, granted, countP_cons_of_neg (by simp), ← granted]
      linarith [min_le_left b.tokens q'.capacity]
  · have hne : ∀ q', op ≠ .check name q' := fun q' heq => hown ⟨q', heq⟩
    have hlog : granted name w'.log = granted name w.log := by
      cases op with cases hs
      | check n q' =>
        simp only [h.enabled, if_true]
        refine countP_cons_of_neg ?_
        simp only [decide_eq_true_eq, Prod.mk.injEq, not_and]
        exact fun heq => absurd (congrArg (Op.check · q') heq) (hne q')
      | _ =>
        rfl
    rw [hlog]
    refine add_le_add_right ?_ _
    cases hfind : (w'.limiter.home hash name).find name with
    | some b =>
      rw [find_step h.unique hne hs hfind]
    | none =>
      cases hold : (w.limiter.home hash name).find name with
      | none => exact le_refl _
      | some b =>
        obtain ⟨hb, hname⟩ := name_of_find hold
        have hgone : b ∉ (w'.limiter.home hash name).buckets := by
          intro hmem
          have hstill : (w'.limiter.home hash name).find name = some b :=
            (find_eq_some (unique_step h.unique hs _)).mpr ⟨hmem, hname⟩
          cases hfind.symm.trans hstill
        cases op with
        | check n q' =>
          have hn : n ≠ name := fun heq => hne q' (heq ▸ rfl)
          cases hs
          exact absurd hfind (hspared hn (by simp [hold]))
        | reset n =>
          cases hs
          refine absurd ?_ hgone
          rw [RateLimiter.reset, if_pos h.enabled]
          refine mem_lock hb fun hi => mem_reset ?_ (hname ▸ hspared)
          rw [RateLimiter.home, hi]
          exact hb
        | evictIdle i t =>
          cases hs
          -- a bucket that was not idle would have stayed
          have hlong : 3600 ≤ since t b.lastSeen := by
            by_contra hshort
            refine hgone ?_
            rw [RateLimiter.evictIdle, if_pos h.enabled]
            refine mem_lock hb fun hi => hi ▸ mem_filter.mpr ⟨hb, ?_⟩
            exact decide_eq_true (not_le.mp hshort)
          rw [tokensAt_idle hidle hr (h.tokens b hold) ht.2 hlong]
          exact le_refl _

/-- **BOUNDED RATE**: while a key is neither reset nor evicted for room, an
    interval allows it no more than the capacity and what flows in. -/
theorem allowed_le {c₀ t T : ℚ} {past ops : List (ℚ × Op)} (hc : 1 ≤ q.capacity)
    (hr : 0 < q.refillPerSecond) (hidle : q.capacity ≤ 3600 * q.refillPerSecond)
    (hT : 0 ≤ T) (hpast : run (step hash) (start true c₀) past = some w)
    (htimely : Admitted (step hash) (Timely name q) (start true c₀) past)
    (hrun : run (step hash) w ops = some w')
    (hspared : Admitted (step hash) (fun w a => Timely name q w a
      ∧ Spared hash name w a ∧ t ≤ a.1 ∧ a.1 ≤ t + T) w ops) :
    (granted name w'.log : ℚ) - granted name w.log ≤ q.capacity + q.refillPerSecond * T := by
  have hstart : Sound hash name (start true c₀) :=
    ⟨rfl, fun _ => nodup_nil, nofun, nofun⟩
  have hsound : Sound hash name w := inv_run_admitted
    (fun _ _ _ h ht hs => sound_step hc hr h ht hs) hstart htimely hpast
  -- after the first step, at a time in the interval, the account is kept
  have hinv : Sound hash name w' ∧ (w' = w ∨ t ≤ w'.clock ∧ w'.clock ≤ t + T
      ∧ (granted name w'.log : ℚ) + tokensAt q w'.clock ((w'.limiter.home hash name).find name)
        ≤ granted name w.log + q.capacity + q.refillPerSecond * (w'.clock - t)) := by
    refine inv_run_admitted (I := fun v => Sound hash name v ∧ (v = w
      ∨ t ≤ v.clock ∧ v.clock ≤ t + T ∧ (granted name v.log : ℚ)
          + tokensAt q v.clock ((v.limiter.home hash name).find name)
        ≤ granted name w.log + q.capacity + q.refillPerSecond * (v.clock - t)))
      ?_ ⟨hsound, .inl rfl⟩ hspared hrun
    rintro v a v' ⟨hv, hacc⟩ ⟨ht, hsp, hlo, hhi⟩ hs
    have hpaid := granted_step hidle hr hv ht hsp hs
    rw [← (enabled_step hs).2] at hlo hhi hpaid
    refine ⟨sound_step hc hr hv ht hs, .inr ⟨hlo, hhi, hpaid.trans ?_⟩⟩
    have hflow := mul_nonneg hr.le (sub_nonneg.mpr hlo)
    rcases hacc with rfl | ⟨-, -, hacc⟩
    · linarith [tokensAt_le q v'.clock ((v.limiter.home hash name).find name)]
    · have hlater := tokensAt_later hr hv.seen ((enabled_step hs).2 ▸ ht.1)
      linarith
  have hflow := mul_nonneg hr.le hT
  rcases hinv with ⟨hsound', rfl | ⟨-, hhi, hacc⟩⟩
  · linarith
  have hpos := tokensAt_nonneg w'.clock hc hr hsound'.tokens
  have hend := mul_le_mul_of_nonneg_left (sub_le_iff_le_add'.mpr hhi) hr.le
  linarith

/-- Two tries at once and one later. -/
theorem allowed_le_three : ∃ w',
    run (step fun _ => 0) (start true 0) [(0, .check ("login", "a") ⟨1, 1⟩),
      (0, .check ("login", "a") ⟨1, 1⟩), (1, .check ("login", "a") ⟨1, 1⟩)]
        = some w' ∧ granted ("login", "a") w'.log = 2
      ∧ (granted ("login", "a") w'.log : ℚ)
        - granted ("login", "a") (start true 0).log ≤ 1 + 1 * 1 := by
  have hplay : ∃ w', run (step fun _ => 0) (start true 0)
      [(0, .check ("login", "a") ⟨1, 1⟩), (0, .check ("login", "a") ⟨1, 1⟩),
        (1, .check ("login", "a") ⟨1, 1⟩)] = some w'
      ∧ granted ("login", "a") w'.log = 2 := ⟨_, rfl, by decide +kernel⟩
  obtain ⟨w', hrun, htwo⟩ := hplay
  have hown : ∀ w t, w.clock ≤ t ∧ 0 ≤ t ∧ t ≤ 0 + 1 →
      Timely ("login", "a") ⟨1, 1⟩ w (t, .check ("login", "a") ⟨1, 1⟩)
        ∧ Spared (fun _ => 0) ("login", "a") w (t, .check ("login", "a") ⟨1, 1⟩)
        ∧ 0 ≤ t ∧ t ≤ 0 + 1 :=
    fun w t h => ⟨⟨h.1, fun _ => rfl⟩, fun hne => absurd rfl hne, h.2⟩
  have hpast : run (step fun _ => 0) (start true 0) [] = some (start true 0) := rfl
  exact ⟨w', hrun, htwo, allowed_le (q := ⟨1, 1⟩) (le_refl 1) one_pos (by norm_num)
    zero_le_one hpast trivial hrun (.cons (hown _ 0 (by decide +kernel)) rfl
      (.cons (hown _ 0 (by decide +kernel)) rfl
        (.cons (hown _ 1 (by decide +kernel)) rfl trivial)))⟩

/-! ## The wait a refusal announces -/

/-- What is cut off. -/
theorem le_max_floor_iff {x : ℚ} (hx : 0 < x) : x ≤ (max ⌊x⌋₊ 1 : ℕ) ↔ x ≤ 1 ∨ ∃ k : ℕ, x = k := by
  rw [Nat.cast_max, le_max_iff, Nat.cast_one, or_comm]
  refine or_congr_right ⟨fun hle => ⟨_, le_antisymm hle (Nat.floor_le hx.le)⟩, ?_⟩
  rintro ⟨k, rfl⟩
  rw [Nat.floor_natCast]

/-- **LONG ENOUGH**: when the time to the next token is at most a second or a
    whole number of seconds, and only then. -/
theorem retry_allowed_iff {l : RateLimiter} {n : Nat} (hc : 1 ≤ q.capacity)
    (hr : 0 < q.refillPerSecond) (hdeny : (l.check hash now name q).2 = .deny n) :
    ((l.check hash now name q).1.check hash (now + n) name q).2 = .allow
      ↔ ∃ b, (l.home hash name).find name = some b
        ∧ ((1 - b.tokens) / q.refillPerSecond - since now b.lastSeen ≤ 1
          ∨ ∃ k : Nat, (1 - b.tokens) / q.refillPerSecond - since now b.lastSeen = k) := by
  have henabled : l.enabled = true := by
    by_contra hoff
    rw [RateLimiter.check, if_neg hoff] at hdeny
    cases hdeny
  have henabled' : (l.check hash now name q).1.enabled = true := by
    rw [RateLimiter.check, if_pos henabled]
    exact henabled
  obtain ⟨b', hb', hseen, ⟨-, hallow, -⟩ | ⟨hfew, hwait, htokens⟩⟩ :=
    check_own hash l henabled now name q rfl
  · cases hallow.symm.trans hdeny
  cases hfind : (l.home hash name).find name with
  | none =>
    rw [hfind] at hfew
    exact absurd hfew (not_lt.mpr hc)
  | some b =>
    rw [hfind, tokensAt] at hfew hwait htokens
    have hmin := min_eq_left ((min_lt_iff.mp hfew).resolve_right (not_lt.mpr hc) |>.le.trans hc)
    rw [hmin] at hfew hwait htokens
    -- the time to the next token
    have hgap : (1 - b'.tokens) / q.refillPerSecond
        = (1 - b.tokens) / q.refillPerSecond - since now b.lastSeen := by
      rw [htokens]
      field_simp
      ring
    have hpos : 0 < (1 - b'.tokens) / q.refillPerSecond :=
      div_pos (sub_pos.mpr (htokens ▸ hfew)) hr
    have hn : n = max ⌊(1 - b'.tokens) / q.refillPerSecond⌋₊ 1 := by
      rw [hwait, ← htokens, Quota.retryAfter, if_neg (not_le.mpr hr),
        max_eq_left (sub_nonneg.mpr (htokens ▸ hfew).le)] at hdeny
      exact (Decision.deny.inj hdeny).symm
    have hlater : tokensAt q (now + n) (some b')
        = min (b'.tokens + n * q.refillPerSecond) q.capacity := by
      rw [tokensAt, hseen, since, add_sub_cancel_left, max_eq_left (Nat.cast_nonneg n)]
    have hagain : 1 ≤ b'.tokens + n * q.refillPerSecond
        ↔ (1 - b'.tokens) / q.refillPerSecond ≤ n := by
      rw [div_le_iff₀ hr, sub_le_iff_le_add']
    obtain ⟨_, -, -, hcases⟩ :=
      check_own hash _ henabled' (now + n) name q (hb' ▸ hlater)
    have hallow : ((l.check hash now name q).1.check hash (now + n) name q).2 = .allow
        ↔ (1 - b'.tokens) / q.refillPerSecond ≤ n := by
      rw [← hagain]
      rcases hcases with ⟨hone, hyes, -⟩ | ⟨hnone, hno, -⟩
      · exact iff_of_true hyes (hone.trans (min_le_left _ _))
      rw [hno]
      refine iff_of_false nofun (not_le.mpr ?_)
      exact (min_lt_iff.mp hnone).resolve_right (not_lt.mpr hc)
    rw [hallow, hn, le_max_floor_iff hpos, hgap]
    exact ⟨fun h => ⟨b, rfl, h⟩, fun ⟨b₀, hb₀, h⟩ => Option.some.inj hb₀ ▸ h⟩

/-- Ten sign-ins of one address, at the limit the Hub sets by default. -/
def tenLogins : List (ℚ × Op) :=
  List.replicate 10 (0, .check ("login_ip", "192.0.2.1") ⟨10, 1 / 6⟩)

/-- **TOO SHORT**: five and a half seconds are missing, five are announced. -/
theorem retry_too_short : ∃ w, run (step fun _ => 0) (start true 0) tenLogins = some w
    ∧ (w.limiter.check (fun _ => 0) (1 / 2) ("login_ip", "192.0.2.1") ⟨10, 1 / 6⟩).2 = .deny 5
    ∧ ((w.limiter.check (fun _ => 0) (1 / 2) ("login_ip", "192.0.2.1")
        ⟨10, 1 / 6⟩).1.check (fun _ => 0) (1 / 2 + (5 : ℕ)) ("login_ip", "192.0.2.1")
          ⟨10, 1 / 6⟩).2 ≠ .allow :=
  ⟨_, rfl, by decide +kernel, by decide +kernel⟩

theorem retry_whole_second : ∃ w, run (step fun _ => 0) (start true 0) tenLogins = some w
      ∧ ((w.limiter.check (fun _ => 0) 1 ("login_ip", "192.0.2.1")
        ⟨10, 1 / 6⟩).1.check (fun _ => 0) (1 + (5 : ℕ)) ("login_ip", "192.0.2.1")
          ⟨10, 1 / 6⟩).2 = .allow := by
  have hplay : ∃ w, run (step fun _ => 0) (start true 0) tenLogins = some w
      ∧ (w.limiter.check (fun _ => 0) 1 ("login_ip", "192.0.2.1") ⟨10, 1 / 6⟩).2 = .deny 5
      ∧ (w.limiter.home (fun _ => 0) ("login_ip", "192.0.2.1")).find
        ("login_ip", "192.0.2.1") = some ⟨("login_ip", "192.0.2.1"), 0, 0, 9⟩ :=
    ⟨_, rfl, by decide +kernel, by decide +kernel⟩
  obtain ⟨w, hrun, hdeny, hfind⟩ := hplay
  refine ⟨w, hrun, (retry_allowed_iff (by norm_num) (by norm_num) hdeny).mpr
    ⟨_, hfind, .inr ⟨5, ?_⟩⟩⟩
  norm_num [since]

end RateLimits
