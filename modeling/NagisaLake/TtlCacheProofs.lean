import NagisaLake.RecencyProofs
import NagisaLake.RunProofs

/-! # The read cache — bounded, with one time to live

`TtlCache` keeps its entries in a map and, for expiry and eviction, a queue
of slots in the order of insertion.  A slot is stale once its entry was
replaced or removed.  As all entries live equally long, the oldest entry is
also the first to expire, so that expired entries are found at the front.

The cache answers with what was inserted last or not at all, keeps its
bounds, and gives an entry up only to expiry or, when it is full, to a new
one, the oldest first (`ttlCache_correct`). -/

namespace TtlCaches

open KeyedTable Recency Runs Table List

variable {α : Type}

/-- An entry of the map, with its key. -/
structure ReadCacheEntry (α : Type) where
  key : String
  value : α
  expiresAt : Nat
  seq : Nat

def ReadCacheEntry.slot (e : ReadCacheEntry α) : Nat × String := (e.seq, e.key)

abbrev Entries (α : Type) :=
  Table String (ReadCacheEntry α) ReadCacheEntry.key

structure TtlCache (α : Type) where
  entries : Entries α
  order : List (Nat × String)
  nextSeq : Nat
  ttl : Nat
  capacity : Nat

def TtlCache.new (ttl capacity : Nat) : TtlCache α :=
  ⟨.empty, [], 0, ttl, max capacity 1⟩

def TtlCache.get (c : TtlCache α) (now : Nat) (key : String) : TtlCache α × Option α :=
  match c.entries.find? key with
  | none => (c, none)
  | some e =>
    if e.expiresAt ≤ now then
      ({ c with entries := c.entries.delete fun e => e.key = key }, none)
    else (c, some e.value)

/-- The entry a slot stands for, unless it is stale. -/
def slotEntry (entries : Entries α) (s : Nat × String) : Option (ReadCacheEntry α) :=
  (entries.find? s.2).filter fun e => e.seq = s.1

/-- `drop_expired`: from the front up to the first live entry. -/
def dropExpired (now : Nat) (entries : Entries α) :
    List (Nat × String) → Entries α × List (Nat × String)
  | [] => (entries, [])
  | s :: order =>
    match slotEntry entries s with
    | some e =>
      if now < e.expiresAt then (entries, s :: order)
      else dropExpired now (entries.delete fun e => e.key = s.2) order
    | none => dropExpired now entries order

def evictOldest (entries : Entries α) (order : List (Nat × String)) :
    Entries α × List (Nat × String) :=
  match popLive (slotEntry entries) order with
  | (some e, order) => (entries.delete fun x => x.key = e.key, order)
  | (none, order) => (entries, order)

/-- Room for the key: expired entries go, and the oldest when it is needed. -/
def makeRoom (c : TtlCache α) (now : Nat) (key : String) : Entries α × List (Nat × String) :=
  let live := dropExpired now c.entries c.order
  if c.capacity ≤ live.1.rows.length ∧ live.1.find? key = none then
    evictOldest live.1 live.2
  else live

def TtlCache.insert (c : TtlCache α) (now : Nat) (key : String) (value : α) : TtlCache α :=
  let room := makeRoom c now key
  let entries := room.1.put ⟨key, value, now + c.ttl, c.nextSeq⟩
  let order := room.2 ++ [(c.nextSeq, key)]
  { c with
    entries := entries
    order :=
      -- `saturating_mul`
      if min (2 * c.capacity) (2 ^ 64 - 1) < order.length then
        order.filter fun s => (slotEntry entries s).isSome
      else order
    nextSeq := (c.nextSeq + 1) % 2 ^ 64 }

def TtlCache.remove (c : TtlCache α) (key : String) : TtlCache α :=
  { c with entries := c.entries.delete fun e => e.key = key }

def TtlCache.retain (c : TtlCache α) (keep : String → Bool) : TtlCache α :=
  { c with entries := c.entries.delete fun e => !keep e.key }

/-! ## Histories -/

inductive Op (α : Type) where
  | get (key : String)
  | insert (key : String) (value : α)
  | remove (key : String)
  | retain (keep : String → Bool)

def TtlCache.apply (c : TtlCache α) (now : Nat) : Op α → TtlCache α
  | .get key => (c.get now key).1
  | .insert key value => c.insert now key value
  | .remove key => c.remove key
  | .retain keep => c.retain keep

/-- The cache, the time, and what has been done, the latest first. -/
structure World (α : Type) where
  cache : TtlCache α
  clock : Nat
  log : List (Nat × Op α)

/-- The clock does not go back. -/
def step (w : World α) (a : Nat × Op α) : Option (World α) :=
  if a.1 < w.clock then none
  else some ⟨w.cache.apply a.1 a.2, a.1, a :: w.log⟩

/-- The value last inserted for a key and not removed since, with its time. -/
def lastInsert (k : String) : List (Nat × Op α) → Option (α × Nat)
  | [] => none
  | (now, .insert key value) :: log =>
    if key = k then some (value, now) else lastInsert k log
  | (_, .remove key) :: log => if key = k then none else lastInsert k log
  | (_, .retain keep) :: log => if keep k then lastInsert k log else none
  | (_, .get _) :: log => lastInsert k log

def inserts (log : List (Nat × Op α)) : Nat :=
  log.countP fun a => match a.2 with
    | .insert _ _ => true
    | _ => false

/-- The entries that have not expired. -/
def TtlCache.unexpired (c : TtlCache α) (now : Nat) : List (ReadCacheEntry α) :=
  c.entries.rows.filter fun e => now < e.expiresAt

/-- What is asked of the cache. -/
structure Correct (w : World α) : Prop where
  answers : ∀ now key value, w.clock ≤ now → (w.cache.get now key).2 = some value →
      ∃ t, lastInsert key w.log = some (value, t) ∧ now < t + w.cache.ttl
  entries_le : w.cache.entries.rows.length ≤ w.cache.capacity
  order_le : w.cache.order.length ≤ 2 * w.cache.capacity
  slots : ∀ e ∈ w.cache.entries.rows, e.slot ∈ w.cache.order
    ∧ (w.cache.order.map Prod.fst).count e.seq = 1
  evicts : ∀ now key value, w.clock ≤ now → ∀ e ∈ w.cache.unexpired now, e.key ≠ key →
      e ∉ (w.cache.insert now key value).entries.rows → (∀ e' ∈ w.cache.unexpired now, e'.key ≠ key)
        ∧ (w.cache.unexpired now).length = w.cache.capacity
        ∧ ∀ e' ∈ w.cache.unexpired now, e.seq ≤ e'.seq

/-! ## Slots -/

variable {entries : Entries α} {order : List (Nat × String)} {n now : Nat}
  {key : String} {c : TtlCache α} {e : ReadCacheEntry α}

theorem slotEntry_eq_some (entries : Entries α) (s : Nat × String) (e : ReadCacheEntry α) :
    slotEntry entries s = some e ↔ e ∈ entries.rows ∧ e.slot = s := by
  rw [slotEntry, Option.filter_eq_some_iff, find?_eq_some_iff, decide_eq_true_eq]
  constructor
  · rintro ⟨⟨he, hkey⟩, hseq⟩
    exact ⟨he, Prod.ext hseq hkey⟩
  · rintro ⟨he, rfl⟩
    exact ⟨⟨he, rfl⟩, rfl⟩

theorem mem_delete_key {k : String} : e ∈ (entries.delete fun x => x.key = k).rows
    ↔ e ∈ entries.rows ∧ e.key ≠ k := by
  show e ∈ entries.rows.filter _ ↔ _
  simp

/-- Older entries expire first. -/
def Aged (rows : List (ReadCacheEntry α)) : Prop :=
  ∀ e ∈ rows, ∀ e' ∈ rows, e.seq ≤ e'.seq → e.expiresAt ≤ e'.expiresAt

/-- **EXPIRED ENTRIES GO**, and no others. -/
theorem dropExpired_spec (now : Nat) : ∀ (order : List (Nat × String)) (entries : Entries α),
    Ordered ReadCacheEntry.slot entries.rows order n → Aged entries.rows →
      (dropExpired now entries order).1.rows = (entries.rows.filter fun e => now < e.expiresAt)
      ∧ Ordered ReadCacheEntry.slot (dropExpired now entries order).1.rows
        (dropExpired now entries order).2 n
      ∧ (dropExpired now entries order).2.length ≤ order.length := by
  intro order
  induction order with
  | nil =>
    intro entries h _
    have hnil : entries.rows = [] :=
      eq_nil_iff_forall_not_mem.mpr fun e he => nomatch h.queued e he
    simp only [dropExpired, hnil]
    exact ⟨rfl, ordered_nil, Nat.le_refl _⟩
  | cons s order ih =>
    intro entries h haged
    rw [dropExpired]
    cases hs : slotEntry entries s with
    | none =>
      have hskip : ∀ e ∈ entries.rows, e.slot ≠ s := by
        intro e he heq
        rw [(slotEntry_eq_some entries s e).mpr ⟨he, heq⟩] at hs
        cases hs
      obtain ⟨hrows, hord, hlen⟩ := ih entries (h.skip hskip) haged
      exact ⟨hrows, hord, Nat.le_succ_of_le hlen⟩
    | some e =>
      obtain ⟨he, rfl⟩ := (slotEntry_eq_some entries s e).mp hs
      by_cases hlive : now < e.expiresAt
      · simp only [hlive, if_true]
        refine ⟨(filter_eq_self.mpr fun e' he' => ?_).symm, h, Nat.le_refl _⟩
        have hle : e.seq ≤ e'.seq := by
          rcases h.oldest he' he with rfl | hlt
          · exact Nat.le_refl _
          · exact Nat.le_of_lt hlt
        exact decide_eq_true (Nat.lt_of_lt_of_le hlive (haged e he e' he' hle))
      · simp only [hlive, if_false]
        have hsub : (entries.delete fun x => x.key = e.key).rows.Sublist
            entries.rows := filter_sublist
        have hgone : ∀ x ∈ (entries.delete fun x => x.key = e.key).rows, x.slot ≠ e.slot := by
          intro x hx heq
          exact (mem_delete_key.mp hx).2 (congrArg Prod.snd heq)
        obtain ⟨hrows, hord, hlen⟩ := ih _ ((h.remove hsub).skip hgone)
          fun x hx y hy => haged x (hsub.subset hx) y (hsub.subset hy)
        refine ⟨hrows.trans ?_, hord, Nat.le_succ_of_le hlen⟩
        show (entries.rows.filter _).filter _ = _
        rw [filter_filter]
        refine filter_congr fun x hx => ?_
        -- only the expired entry has this key
        by_cases hkey : x.key = e.key
        · have hsame : x = e :=
            inj_on_of_nodup_map entries.nodup hx he hkey
          simp [hsame, hlive]
        · simp [hkey]

/-- What stays of the unexpired entries: all, or all but the oldest when there
    is no room for a new key. -/
structure Room (c : TtlCache α) (now : Nat) (key : String)
    (room : Entries α × List (Nat × String)) : Prop where
  ordered : Ordered ReadCacheEntry.slot room.1.rows room.2 c.nextSeq
  length_le : room.2.length ≤ c.order.length
  kept : room.1.rows.Sublist (c.unexpired now)
  stays : c.unexpired now = room.1.rows
      ∧ (room.1.rows.length < c.capacity ∨ key ∈ room.1.rows.map (·.key))
    ∨ (∀ e ∈ c.unexpired now, e.key ≠ key) ∧ c.capacity ≤ (c.unexpired now).length
      ∧ room.1.rows.length + 1 = (c.unexpired now).length
      ∧ ∀ e ∈ c.unexpired now, e ∉ room.1.rows → ∀ e' ∈ c.unexpired now, e.seq ≤ e'.seq

theorem makeRoom_spec (now : Nat) (key : String) (hcap : 1 ≤ c.capacity)
    (h : Ordered ReadCacheEntry.slot c.entries.rows c.order c.nextSeq)
    (haged : Aged c.entries.rows) : Room c now key (makeRoom c now key) := by
  obtain ⟨hrows, hord, hlen⟩ := dropExpired_spec now _ _ h haged
  have hrows : (dropExpired now c.entries c.order).1.rows = c.unexpired now :=
    hrows
  rw [makeRoom]
  split
  · next hfull =>
    have hne : (dropExpired now c.entries c.order).1.rows ≠ [] := by
      intro hnil
      rw [hnil] at hfull
      exact Nat.not_succ_le_zero _ (hcap.trans hfull.1)
    obtain ⟨e, order', hpop, he, hold, hrest⟩ := popLive_spec
      (slotEntry_eq_some (dropExpired now c.entries c.order).1)
      _ hord hne
    have hgone : e ∉ ((dropExpired now c.entries c.order).1.delete
        fun x => x.key = e.key).rows := fun hmem =>
      (mem_delete_key.mp hmem).2 rfl
    have hpopped : (popLive (slotEntry (dropExpired now c.entries
        c.order).1) (dropExpired now c.entries c.order).2).2.length
        ≤ c.order.length := (popLive_length _ _).trans hlen
    rw [evictOldest]
    rw [hpop] at hpopped ⊢
    refine ⟨hrest _ filter_sublist hgone, hpopped, hrows ▸ filter_sublist, .inr ⟨?_, ?_, ?_, ?_⟩⟩
    · intro e' he' hkey
      rw [← hrows] at he'
      exact find?_eq_none_iff.mp hfull.2 (mem_map.mpr ⟨e', he', hkey⟩)
    · rw [← hrows]
      exact hfull.1
    · rw [← hrows]
      exact length_delete_key (find?_of_mem he)
    intro x hx hnot e' he'
    rw [← hrows] at hx he'
    -- the one that went has the key of the oldest
    have hkey : x.key = e.key := by
      by_contra hkey
      exact hnot (mem_delete_key.mpr ⟨hx, hkey⟩)
    rw [inj_on_of_nodup_map (dropExpired now c.entries c.order).1.nodup hx he hkey]
    rcases hold e' he' with rfl | hlt
    · exact Nat.le_refl _
    · exact Nat.le_of_lt hlt
  · next hroom =>
    refine ⟨hord, hlen, hrows ▸ List.Sublist.refl _, .inl ⟨hrows.symm, ?_⟩⟩
    rw [not_and_or, Nat.not_le] at hroom
    refine hroom.imp_right fun hfound => ?_
    by_contra hnot
    exact hfound (find?_eq_none_iff.mpr hnot)

/-! ## The invariant -/

structure Inv (w : World α) : Prop where
  capacity : 1 ≤ w.cache.capacity
  next : w.cache.nextSeq = inserts w.log
  ordered : Ordered ReadCacheEntry.slot w.cache.entries.rows w.cache.order w.cache.nextSeq
  aged : Aged w.cache.entries.rows
  due : ∀ e ∈ w.cache.entries.rows, e.expiresAt ≤ w.clock + w.cache.ttl
  entries_le : w.cache.entries.rows.length ≤ w.cache.capacity
  order_le : w.cache.order.length ≤ 2 * w.cache.capacity
  last : ∀ e ∈ w.cache.entries.rows, ∃ t,
    lastInsert e.key w.log = some (e.value, t) ∧ e.expiresAt = t + w.cache.ttl

variable {w : World α}

theorem inserts_insert {value : α} {log : List (Nat × Op α)} :
    inserts ((now, .insert key value) :: log) = inserts log + 1 :=
  countP_cons_of_pos rfl

/-- Entries go: by `remove`, by `retain`, or by a `get` that finds them expired. -/
theorem Inv.shrink (h : Inv w) (hnow : w.clock ≤ now) {op : Op α}
    (hsub : entries.rows.Sublist w.cache.entries.rows)
    (hop : inserts ((now, op) :: w.log) = inserts w.log)
    (hlast : ∀ e ∈ entries.rows, lastInsert e.key ((now, op) :: w.log) = lastInsert e.key w.log) :
    Inv ⟨{ w.cache with entries := entries }, now, (now, op) :: w.log⟩ :=
  { h with
    next := h.next.trans hop.symm
    ordered := h.ordered.remove hsub
    aged := fun e he e' he' => h.aged e (hsub.subset he) e' (hsub.subset he')
    due := fun e he => (h.due e (hsub.subset he)).trans (Nat.add_le_add_right hnow _)
    entries_le := hsub.length_le.trans h.entries_le
    last := by
      intro e he
      rw [hlast e he]
      exact h.last e (hsub.subset he) }

theorem Inv.get (h : Inv w) (hnow : w.clock ≤ now) (key : String) :
    Inv ⟨(w.cache.get now key).1, now, (now, .get key) :: w.log⟩ := by
  have hstay : Inv ⟨w.cache, now, (now, .get key) :: w.log⟩ :=
    h.shrink hnow (List.Sublist.refl _) rfl fun _ _ => rfl
  rw [TtlCache.get]
  split
  · exact hstay
  split
  · exact h.shrink hnow filter_sublist rfl fun _ _ => rfl
  · exact hstay

theorem Room.entries_le {room : Entries α × List (Nat × String)}
    (h : Room c now key room) (hle : c.entries.rows.length ≤ c.capacity)
    (e : ReadCacheEntry α) (he : e.key = key) :
    (room.1.put e).rows.length ≤ c.capacity := by
  have hall : (c.unexpired now).length ≤ c.capacity :=
    (length_filter_le ..).trans hle
  have hput : (room.1.put e).rows.length ≤ room.1.rows.length + 1 :=
    Nat.succ_le_succ (length_filter_le ..)
  rcases h.stays with ⟨heq, hroom | hfound⟩ | ⟨-, -, hlen, -⟩
  · omega
  · obtain ⟨x, hx, hkey⟩ := mem_map.mp hfound
    have hdel := length_delete_key (find?_of_mem hx)
    rw [heq] at hall
    have hsame : (room.1.put e).rows.length
        = (room.1.delete fun s => s.key = x.key).rows.length + 1 := by
      rw [show x.key = e.key from hkey.trans he.symm]
      simp [put, delete]
    omega
  · omega

theorem Inv.insert (h : Inv w) (hnow : w.clock ≤ now) (key : String) (value : α)
    (hfew : inserts ((now, .insert key value) :: w.log) < 2 ^ 64) :
    Inv ⟨w.cache.insert now key value, now, (now, .insert key value) :: w.log⟩ := by
  have hroom := makeRoom_spec now key h.capacity h.ordered h.aged
  have hsub : (makeRoom w.cache now key).1.rows.Sublist w.cache.entries.rows :=
    hroom.kept.trans filter_sublist
  have hmem : ∀ e ∈ ((makeRoom w.cache now key).1.put
      ⟨key, value, now + w.cache.ttl, w.cache.nextSeq⟩).rows,
      e = ⟨key, value, now + w.cache.ttl, w.cache.nextSeq⟩
        ∨ e.key ≠ key ∧ e ∈ w.cache.entries.rows := by
    intro e he
    rcases mem_cons.mp he with rfl | he
    · exact .inl rfl
    · obtain ⟨he, hne⟩ := mem_filter.mp he
      exact .inr ⟨of_decide_eq_true hne, hsub.subset he⟩
  have hentries := hroom.entries_le h.entries_le
    ⟨key, value, now + w.cache.ttl, w.cache.nextSeq⟩ rfl
  have hpush : Ordered ReadCacheEntry.slot ((makeRoom w.cache now key).1.put
      ⟨key, value, now + w.cache.ttl, w.cache.nextSeq⟩).rows
      ((makeRoom w.cache now key).2 ++ [(w.cache.nextSeq, key)])
      (w.cache.nextSeq + 1) :=
    (hroom.ordered.remove filter_sublist).push rfl
  obtain ⟨hord, hlen⟩ := hpush.compact (slotEntry_eq_some _)
    (Nat.min_le_left (2 * w.cache.capacity) (2 ^ 64 - 1)) (by omega)
  have hnext : (w.cache.nextSeq + 1) % 2 ^ 64 = w.cache.nextSeq + 1 := by
    rw [inserts_insert, ← h.next] at hfew
    exact Nat.mod_eq_of_lt hfew
  have hseq : ∀ e ∈ w.cache.entries.rows, e.seq < w.cache.nextSeq :=
    fun e he => h.ordered.below _ (h.ordered.queued e he)
  constructor
  · exact h.capacity
  · show (w.cache.nextSeq + 1) % 2 ^ 64 = _
    rw [hnext, h.next, inserts_insert]
  · show Ordered _ _ _ ((w.cache.nextSeq + 1) % 2 ^ 64)
    rw [hnext]
    exact hord
  · intro e he e' he' hle
    rcases hmem e he with rfl | ⟨-, he⟩
    · rcases hmem e' he' with rfl | ⟨-, he'⟩
      · exact Nat.le_refl _
      · exact absurd hle (Nat.not_le.mpr (hseq e' he'))
    rcases hmem e' he' with rfl | ⟨-, he'⟩
    · exact (h.due e he).trans (Nat.add_le_add_right hnow _)
    · exact h.aged e he e' he' hle
  · intro e he
    rcases hmem e he with rfl | ⟨-, he⟩
    · exact Nat.le_refl _
    · exact (h.due e he).trans (Nat.add_le_add_right hnow _)
  · exact hentries
  · exact hlen
  · intro e he
    rcases hmem e he with rfl | ⟨hne, he⟩
    · exact ⟨now, if_pos rfl, rfl⟩
    · rw [lastInsert, if_neg (Ne.symm hne)]
      exact h.last e he

variable {w' : World α} {a : Nat × Op α}

theorem inv_step (h : Inv w) (hfew : inserts w'.log < 2 ^ 64)
    (hs : step w a = some w') : Inv w' := by
  rw [step] at hs
  split at hs
  · cases hs
  next hnow =>
  obtain ⟨now, op⟩ := a
  have hnow := Nat.not_lt.mp hnow
  cases hs
  cases op with
  | get key => exact h.get hnow key
  | insert key value => exact h.insert hnow key value hfew
  | remove key =>
    refine h.shrink hnow filter_sublist rfl fun e he => ?_
    exact if_neg (Ne.symm (mem_delete_key.mp he).2)
  | retain keep =>
    refine h.shrink hnow filter_sublist rfl fun e he => ?_
    exact if_pos (by simpa using (mem_filter.mp he).2)

theorem Inv.correct (h : Inv w) : Correct w := { h with
  answers := by
    intro now key value hnow hget
    rw [TtlCache.get] at hget
    split at hget
    · cases hget
    next e he =>
    split at hget
    · cases hget
    next hlive =>
    cases hget
    obtain ⟨t, hlast, hdue⟩ := h.last e (mem_of_find? he)
    rw [key_of_find? he] at hlast
    exact ⟨t, hlast, hdue ▸ Nat.not_le.mp hlive⟩
  slots := by
    intro e he
    have hmem := h.ordered.queued e he
    exact ⟨hmem, count_eq_one_of_mem h.ordered.numbers (mem_map_of_mem hmem)⟩
  evicts := by
    intro now key value _ e he hne hgone
    have hroom := makeRoom_spec now key h.capacity h.ordered h.aged
    have hout : e ∉ (makeRoom w.cache now key).1.rows := fun hmem =>
      hgone (mem_cons_of_mem _ (mem_filter.mpr ⟨hmem, decide_eq_true hne⟩))
    rcases hroom.stays with ⟨heq, -⟩ | ⟨hnew, hfull, -, hold⟩
    · exact absurd (heq ▸ he) hout
    · exact ⟨hnew, le_antisymm ((length_filter_le ..).trans h.entries_le) hfull, hold e he hout⟩ }

/-- An empty cache. -/
def start (ttl capacity : Nat) : World α := ⟨.new ttl capacity, 0, []⟩

theorem inserts_step (hs : step w a = some w') : inserts w.log ≤ inserts w'.log := by
  obtain ⟨-, rfl⟩ := of_guard_not hs
  exact (sublist_cons_self a w.log).countP_le

/-- No operation changes the settings of the cache. -/
theorem settings_step (hs : step w a = some w') :
    w'.cache.ttl = w.cache.ttl ∧ w'.cache.capacity = w.cache.capacity := by
  obtain ⟨now, op⟩ := a
  obtain ⟨-, rfl⟩ := of_guard_not hs
  cases op with
  | get key =>
    show (w.cache.get now key).1.ttl = _ ∧ (w.cache.get now key).1.capacity = _
    rw [TtlCache.get]
    split
    · exact ⟨rfl, rfl⟩
    · split <;> exact ⟨rfl, rfl⟩
  | _ => exact ⟨rfl, rfl⟩

/-- **A BOUNDED MAP WITH A TIME TO LIVE**: after every sequence of operations
    with a clock that does not go back and fewer than `2 ^ 64` inserts. -/
theorem ttlCache_correct {ttl capacity : Nat} (hcap : 1 ≤ capacity)
    {ops : List (Nat × Op α)} (hrun : run step (start ttl capacity) ops = some w)
    (hfew : inserts w.log < 2 ^ 64) :
    w.cache.ttl = ttl ∧ w.cache.capacity = capacity ∧ Correct w := by
  obtain ⟨httl, hcapacity⟩ := inv_run
    (I := fun w => w.cache.ttl = ttl ∧ w.cache.capacity = capacity)
    (fun w a w' h hs => ⟨(settings_step hs).1.trans h.1,
      (settings_step hs).2.trans h.2⟩) ⟨rfl, Nat.max_eq_left hcap⟩ hrun
  refine ⟨httl, hcapacity, Inv.correct (inv_run (I := fun w => inserts w.log < 2 ^ 64 → Inv w)
    (fun w a w' h hs hfew => ?_) (fun _ => ?_) hrun hfew)⟩
  · exact inv_step (h (Nat.lt_of_le_of_lt (inserts_step hs) hfew)) hfew hs
  · exact ⟨Nat.le_max_right .., rfl, ordered_nil, nofun, nofun, Nat.zero_le _, Nat.zero_le _, nofun⟩

theorem ttlCache_correct_full : ∃ w, run step (start 10 1) [(0, .insert "a" 1), (5, .insert "b" 2),
      (6, .get "a")] = some w ∧ w.cache.entries.find? "a" = none
      ∧ w.cache.ttl = 10 ∧ w.cache.capacity = 1 ∧ Correct w := by
  have hplay : ∃ w, run step (start 10 1) [(0, .insert "a" 1),
      (5, .insert "b" 2), (6, .get "a")] = some w
      ∧ w.cache.entries.find? "a" = none ∧ inserts w.log < 2 ^ 64 :=
    ⟨_, rfl, by decide +kernel, by decide +kernel⟩
  obtain ⟨w, hrun, hgone, hfew⟩ := hplay
  exact ⟨w, hrun, hgone, ttlCache_correct (Nat.le_refl 1) hrun hfew⟩

end TtlCaches
