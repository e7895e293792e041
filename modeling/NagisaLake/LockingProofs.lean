import NagisaLake.TableProofs

/-! # Tables under READ COMMITTED — row locks and uncommitted versions

A transaction that writes or locks a row holds it until it ends; the
version it has written is seen by nobody else before it commits.  So a
table is its committed rows and, under a key at most, one uncommitted
version with the transaction that holds it.  A transaction sees the
committed rows with its own versions in their place (`view`), and a
statement's snapshot is that view when the statement starts.

`gain` is what a transaction would add to a sum over the table.  It is the
transaction's own: whatever another one does leaves it (`Kept.gain`),
because the rows it replaces are locked. -/

namespace Locking

open KeyedTable Table List Option

/-- An uncommitted version and the transaction that holds the row. -/
structure Dirty (ρ : Type) where
  tx : Nat
  row : ρ

/-- The committed rows and the rows held. -/
structure Locked (κ ρ : Type) (key : ρ → κ) where
  rows : Table κ ρ key
  dirty : Table κ (Dirty ρ) fun d => key d.row

namespace Locked

variable {κ ρ : Type} {key : ρ → κ} [DecidableEq κ]

/-- A table nobody writes. -/
def committed (t : Table κ ρ key) : Locked κ ρ key := ⟨t, Table.empty⟩

/-- The transaction holds the row. -/
def Holds (t : Locked κ ρ key) (i : Nat) (k : κ) : Prop :=
  ∃ r, t.dirty.find? k = some ⟨i, r⟩

/-- No other transaction holds the row. -/
def free (t : Locked κ ρ key) (i : Nat) (k : κ) : Bool :=
  (t.dirty.find? k).all fun d => decide (d.tx = i)

/-- The versions a transaction has written. -/
def own (t : Locked κ ρ key) (i : Nat) : List ρ :=
  (t.dirty.rows.filter fun d => decide (d.tx = i)).map Dirty.row

/-- What a transaction sees. -/
def view (t : Locked κ ρ key) (i : Nat) : Table κ ρ key :=
  (t.own i).foldl Table.put t.rows

/-- The row a transaction sees under a key. -/
def read (t : Locked κ ρ key) (i : Nat) (k : κ) : Option ρ :=
  (((t.dirty.find? k).filter fun d => decide (d.tx = i)).map Dirty.row) <|> t.rows.find? k

/-- The row under a key once its lock is granted; `none` while another transaction holds it. -/
def await (t : Locked κ ρ key) (i : Nat) (k : κ) : Option (Option ρ) :=
  if t.free i k then some (t.read i k) else none

/-- Write a version, or lock the row with the version it has. -/
def write (t : Locked κ ρ key) (i : Nat) (r : ρ) : Locked κ ρ key :=
  { t with dirty := t.dirty.put ⟨i, r⟩ }

/-- The transaction ends and gives its rows back. -/
def rollback (t : Locked κ ρ key) (i : Nat) : Locked κ ρ key :=
  { t with dirty := t.dirty.delete fun d => decide (d.tx = i) }

/-- The transaction's view is what everybody sees from now on. -/
def commit (t : Locked κ ρ key) (i : Nat) : Locked κ ρ key :=
  ⟨t.view i, (t.rollback i).dirty⟩

/-- What the transaction would add to a sum. -/
def gain (t : Locked κ ρ key) (i : Nat) (w : ρ → Int) : Int :=
  (t.view i).total w - t.rows.total w

variable {t : Locked κ ρ key} {i j : Nat} {k : κ} {r : ρ} {w : ρ → Int}

/-! ## Who holds what -/

omit [DecidableEq κ] in
theorem mem_own : r ∈ t.own i ↔ (⟨i, r⟩ : Dirty ρ) ∈ t.dirty.rows := by
  constructor
  · intro h
    obtain ⟨⟨x, s⟩, hd, rfl⟩ := mem_map.mp h
    obtain ⟨hmem, hx⟩ := mem_filter.mp hd
    obtain rfl : x = i := of_decide_eq_true hx
    exact hmem
  · intro h
    exact mem_map.mpr ⟨⟨i, r⟩, mem_filter.mpr ⟨h, decide_eq_true rfl⟩, rfl⟩

omit [DecidableEq κ] in
theorem own_nodup (t : Locked κ ρ key) (i : Nat) : ((t.own i).map key).Nodup := by
  rw [own, List.map_map]
  exact t.dirty.nodup.sublist (filter_sublist.map _)

theorem find?_own (t : Locked κ ρ key) (i : Nat) (k : κ) :
    ((t.own i).find? fun r => decide (key r = k))
      = ((t.dirty.find? k).filter fun d => decide (d.tx = i)).map
        Dirty.row := by
  apply Option.ext
  intro r
  rw [map_eq_some_iff]
  constructor
  · intro h
    have hmem := mem_own.mp (mem_of_find?_eq_some h)
    have hkey : key r = k := by simpa using find?_some h
    refine ⟨⟨i, r⟩, filter_eq_some_iff.mpr ⟨?_, decide_eq_true rfl⟩, rfl⟩
    exact find?_eq_some_iff.mpr ⟨hmem, hkey⟩
  · rintro ⟨⟨x, s⟩, hd, rfl⟩
    obtain ⟨hfind, hx⟩ := filter_eq_some_iff.mp hd
    obtain rfl : x = i := of_decide_eq_true hx
    obtain ⟨hmem, hkey⟩ := find?_eq_some_iff.mp hfind
    have hown : (⟨t.own x, own_nodup t x⟩ : Table κ ρ key).find? k
        = some s := find?_eq_some_iff.mpr ⟨mem_own.mpr hmem, hkey⟩
    exact hown

/-- The view, row by row. -/
theorem find?_view (t : Locked κ ρ key) (i : Nat) (k : κ) : (t.view i).find? k = t.read i k := by
  rw [view, find?_foldl_put _ _ (own_nodup t i), find?_own]
  rfl

/-- A row that is held is seen as it was written. -/
theorem read_of_holds (h : t.dirty.find? k = some ⟨i, r⟩) : t.read i k = some r := by
  rw [read, h, filter_some, if_pos (decide_eq_true rfl)]
  rfl

/-- A row that is not held is seen as it was committed. -/
theorem read_of_not_holds (h : ¬ t.Holds i k) : t.read i k = t.rows.find? k := by
  rw [read]
  cases hd : t.dirty.find? k with
  | none => rfl
  | some d =>
    have hne : d.tx ≠ i := by
      rintro rfl
      exact h ⟨d.row, hd⟩
    rw [filter_some, decide_eq_false hne]
    rfl

theorem isSome_read : (t.read i k).isSome = true
    ↔ t.Holds i k ∨ (t.rows.find? k).isSome = true := by
  by_cases h : t.Holds i k
  · obtain ⟨r, hr⟩ := h
    rw [read_of_holds hr]
    exact ⟨fun _ => .inl ⟨r, hr⟩, fun _ => rfl⟩
  · rw [read_of_not_holds h]
    exact ⟨.inr, fun h' => h'.resolve_left h⟩

theorem key_of_read (h : t.read i k = some r) : key r = k := by
  rw [← find?_view] at h
  exact key_of_find? h

theorem await_eq_some {x : Option ρ} (h : t.await i k = some x) :
    t.free i k = true ∧ t.read i k = x := by
  rw [await] at h
  split at h
  · next hfree => exact ⟨hfree, some.inj h⟩
  · cases h

/-- A statement that goes on with the row it has waited for. -/
theorem map_await_eq_some {α : Type} {f : Option ρ → α} {y : α} (h : (t.await i k).map f = some y) :
    ∃ x, t.free i k = true ∧ t.read i k = x ∧ f x = y := by
  obtain ⟨x, hx, hy⟩ := map_eq_some_iff.mp h
  obtain ⟨hfree, hread⟩ := await_eq_some hx
  exact ⟨x, hfree, hread, hy⟩

theorem not_holds_committed {rows : Table κ ρ key} : ¬ (committed rows).Holds i k := by
  rintro ⟨r, hr⟩
  cases hr

/-- Rows are held by one transaction. -/
theorem Holds.unique (h : t.Holds i k) (h' : t.Holds j k) : i = j := by
  obtain ⟨r, hr⟩ := h
  obtain ⟨s, hs⟩ := h'
  exact congrArg Dirty.tx (some.inj (hr.symm.trans hs))

theorem Holds.not_free (h : t.Holds j k) (hij : i ≠ j) : t.free i k = false := by
  obtain ⟨r, hr⟩ := h
  rw [free, hr]
  exact decide_eq_false (Ne.symm hij)

/-! ## Writing -/

theorem find?_dirty_write (t : Locked κ ρ key) (i : Nat) (r : ρ) (k : κ) :
    (t.write i r).dirty.find? k = if key r = k then some ⟨i, r⟩ else t.dirty.find? k :=
  find?_put ..

theorem find?_dirty_write_self (t : Locked κ ρ key) (i : Nat) (r : ρ) :
    (t.write i r).dirty.find? (key r) = some ⟨i, r⟩ := by
  rw [find?_dirty_write, if_pos rfl]

/-- The writer sees its version. -/
theorem read_write (t : Locked κ ρ key) (i : Nat) (r : ρ) (k : κ) :
    (t.write i r).read i k = if key r = k then some r else t.read i k := by
  rw [read, find?_dirty_write]
  split
  · rw [filter_some, if_pos (decide_eq_true rfl)]
    rfl
  · rfl

/-- A version counts for the one the writer saw. -/
theorem gain_write (t : Locked κ ρ key) (i : Nat) (r : ρ) (w : ρ → Int) :
    (t.write i r).gain i w + ((t.read i (key r)).map w).getD 0 = t.gain i w + w r := by
  -- for its writer, to write a version is to put it into the view
  have hview : ((t.write i r).view i).total w = ((t.view i).put r).total w := by
    refine total_congr w fun k => ?_
    rw [find?_view, read_write, find?_put, find?_view]
  have hput := total_put (t.view i) r w
  rw [find?_view] at hput
  rw [gain, gain, hview]
  show _ - t.rows.total w + _ = _
  omega

/-! ## Gains -/

/-- The gain, version by version. -/
theorem gain_eq (t : Locked κ ρ key) (i : Nat) (w : ρ → Int) : t.gain i w = ((t.own i).map fun r =>
      w r - ((t.rows.find? (key r)).map w).getD 0).sum := by
  rw [gain, view, total_foldl_put w _ _ (own_nodup t i)]
  omega

/-- A transaction that holds nothing gains nothing. -/
theorem gain_of_clean (h : ∀ k, ¬ t.Holds i k) : t.gain i w = 0 := by
  have hview : (t.view i).total w = t.rows.total w := by
    refine total_congr w fun k => ?_
    rw [find?_view, read_of_not_holds (h k)]
  rw [gain, hview]
  omega

/-! ## What the others do -/

/-- What a transaction holds, and the rows under it, are as they were. -/
structure Kept (t u : Locked κ ρ key) (i : Nat) : Prop where
  dirty : ∀ k s, u.dirty.find? k = some ⟨i, s⟩ ↔ t.dirty.find? k = some ⟨i, s⟩
  rows : ∀ k, t.Holds i k → u.rows.find? k = t.rows.find? k

theorem Kept.refl (t : Locked κ ρ key) (i : Nat) : t.Kept t i :=
  ⟨fun _ _ => Iff.rfl, fun _ _ => rfl⟩

variable {u : Locked κ ρ key} {l : List ρ}

theorem Kept.trans {v : Locked κ ρ key} (h : t.Kept u i) (h' : u.Kept v i) : t.Kept v i where
  dirty := fun k s => (h'.dirty k s).trans (h.dirty k s)
  rows := by
    rintro k ⟨s, hs⟩
    rw [h'.rows k ⟨s, (h.dirty k s).mpr hs⟩, h.rows k ⟨s, hs⟩]

theorem Kept.holds (h : t.Kept u i) : u.Holds i k ↔ t.Holds i k :=
  exists_congr fun s => h.dirty k s

/-- The gain of a transaction is its own. -/
theorem Kept.gain (h : t.Kept u i) (w : ρ → Int) : u.gain i w = t.gain i w := by
  -- the versions are the same, their order in the table may differ
  have hperm : (u.own i).Perm (t.own i) := by
    refine (perm_ext_iff_of_nodup (own_nodup u i).of_map (own_nodup t i).of_map).mpr fun r => ?_
    rw [mem_own, mem_own]
    constructor
    · intro hr
      exact mem_of_find? ((h.dirty (key r) r).mp (find?_of_mem hr))
    · intro hr
      exact mem_of_find? ((h.dirty (key r) r).mpr (find?_of_mem hr))
  rw [gain_eq, gain_eq, (hperm.map _).sum_eq]
  congr 1
  apply map_congr_left
  intro r hr
  rw [h.rows (key r) ⟨r, find?_of_mem (mem_own.mp hr)⟩]

/-- Another transaction writes a row that is free to it. -/
theorem kept_write (hfree : t.free j (key r) = true) (hij : i ≠ j) : t.Kept (t.write j r) i := by
  refine ⟨fun k s => ?_, fun _ _ => rfl⟩
  rw [find?_dirty_write]
  split
  · next hk =>
    subst hk
    constructor
    · intro h
      exact absurd (congrArg Dirty.tx (some.inj h)).symm hij
    intro h
    rw [Holds.not_free ⟨s, h⟩ (Ne.symm hij)] at hfree
    cases hfree
  · exact Iff.rfl

theorem find?_dirty_rollback (t : Locked κ ρ key) (i : Nat) (k : κ) : (t.rollback i).dirty.find? k
      = (t.dirty.find? k).filter fun d => !decide (d.tx = i) :=
  find?_delete ..

/-- A transaction that has ended holds nothing. -/
theorem not_holds_rollback : ¬ (t.rollback i).Holds i k := by
  rintro ⟨r, hr⟩
  rw [find?_dirty_rollback, filter_eq_some_iff] at hr
  simp at hr

theorem kept_rollback (hij : i ≠ j) : t.Kept (t.rollback j) i := by
  refine ⟨fun k s => ?_, fun _ _ => rfl⟩
  rw [find?_dirty_rollback, filter_eq_some_iff]
  constructor
  · exact fun h => h.1
  · exact fun h => ⟨h, by simp [hij]⟩

/-- A commit leaves the rows another transaction holds. -/
theorem kept_commit (hij : i ≠ j) : t.Kept (t.commit j) i := by
  refine ⟨(kept_rollback hij).dirty, fun k h => ?_⟩
  show (t.view j).find? k = _
  rw [find?_view]
  exact read_of_not_holds fun hj => hij (h.unique hj)

/-- A commit adds the gain. -/
theorem total_commit (t : Locked κ ρ key) (i : Nat) (w : ρ → Int) :
    (t.commit i).rows.total w = t.rows.total w + t.gain i w := by
  show (t.view i).total w = _
  rw [gain]
  omega

/-- What everybody sees after a commit. -/
theorem find?_commit (t : Locked κ ρ key) (i : Nat) (k : κ) :
    (t.commit i).rows.find? k = t.read i k :=
  find?_view t i k

/-! ## Inserting, and all a transaction has written -/

/-- `INSERT` without `ON CONFLICT`: wait while another transaction holds the
    key, and fail with `some none` where it is taken. -/
def insert (t : Locked κ ρ key) (i : Nat) (r : ρ) : Option (Option (Locked κ ρ key)) :=
  (t.await i (key r)).map fun
    | some _ => none
    | none => some (t.write i r)

/-- These are the versions of the transaction. -/
def Owns (t : Locked κ ρ key) (i : Nat) (l : List ρ) : Prop :=
  ∀ r, t.dirty.find? (key r) = some ⟨i, r⟩ ↔ r ∈ l

theorem insert_eq_some (h : t.insert i r = some (some u)) :
    t.free i (key r) = true ∧ t.read i (key r) = none ∧ u = t.write i r := by
  obtain ⟨row, hfree, hread, hu⟩ := map_await_eq_some h
  cases row with
  | some _ => cases hu
  | none => exact ⟨hfree, hread, (some.inj hu).symm⟩

theorem owns_of_clean (h : t.dirty = Table.empty) : t.Owns i [] := by
  intro r
  rw [h]
  exact iff_of_false nofun not_mem_nil

theorem owns_committed (rows : Table κ ρ key) (i : Nat) :
    (committed rows).Owns i [] := owns_of_clean rfl

theorem Owns.holds (h : t.Owns i l) : t.Holds i k ↔ ∃ r ∈ l, key r = k := by
  constructor
  · rintro ⟨r, hr⟩
    have hkey : key r = k := key_of_find? (t := t.dirty) hr
    exact ⟨r, (h r).mp (hkey ▸ hr), hkey⟩
  · rintro ⟨r, hr, rfl⟩
    exact ⟨r, (h r).mpr hr⟩

/-- What the others do leaves it. -/
theorem Owns.kept (h : t.Owns i l) (hkept : t.Kept u i) : u.Owns i l := by
  intro r
  rw [hkept.dirty]
  exact h r

theorem owns_rollback : (t.rollback i).Owns i [] := by
  intro r
  exact iff_of_false (fun h => not_holds_rollback ⟨r, h⟩) not_mem_nil

theorem owns_commit : (t.commit i).Owns i [] :=
  owns_rollback (t := t)

theorem Owns.read (h : t.Owns i l) (hr : r ∈ l) : t.read i (key r) = some r :=
  read_of_holds ((h r).mpr hr)

theorem Owns.read_other (h : t.Owns i l) (hk : ∀ r ∈ l, key r ≠ k) :
    t.read i k = t.rows.find? k := by
  refine read_of_not_holds fun hold => ?_
  obtain ⟨r, hr, hkey⟩ := h.holds.mp hold
  exact hk r hr hkey

/-- A transaction that has written nothing changes nothing by its commit. -/
theorem Owns.find?_commit (h : t.Owns i []) (k : κ) :
    (t.commit i).rows.find? k = t.rows.find? k := by
  rw [Locked.find?_commit]
  exact h.read_other fun r hr => absurd hr not_mem_nil

/-- One more version. -/
theorem Owns.write (h : t.Owns i l) (hnew : ∀ s ∈ l, key s ≠ key r) :
    (t.write i r).Owns i (l ++ [r]) := by
  intro s
  rw [find?_dirty_write, mem_append, mem_singleton]
  by_cases hkey : key r = key s
  · rw [if_pos hkey]
    constructor
    · intro hs
      exact .inr (congrArg Dirty.row (some.inj hs)).symm
    rintro (hs | rfl)
    · exact absurd hkey.symm (hnew s hs)
    · rfl
  · rw [if_neg hkey, h s]
    constructor
    · exact .inl
    rintro (hs | rfl)
    · exact hs
    · exact absurd rfl hkey

/-- Another version of the only row. -/
theorem Owns.rewrite {s : ρ} (h : t.Owns i [s]) (hkey : key r = key s) :
    (t.write i r).Owns i [r] := by
  intro x
  rw [find?_dirty_write, mem_singleton]
  by_cases hx : key r = key x
  · rw [if_pos hx]
    constructor
    · intro h
      exact (congrArg Dirty.row (some.inj h)).symm
    · rintro rfl
      rfl
  · rw [if_neg hx, h x, mem_singleton]
    constructor
    · rintro rfl
      exact absurd hkey hx
    · rintro rfl
      exact absurd rfl hx

/-- A transaction that has written one row changes that one by its commit. -/
theorem Owns.find?_commit_one (h : t.Owns i [r]) (k : κ) :
    (t.commit i).rows.find? k = if key r = k then some r else t.rows.find? k := by
  rw [Locked.find?_commit]
  split
  · next hk =>
    rw [← hk]
    exact h.read (mem_singleton.mpr rfl)
  next hk =>
  refine h.read_other fun s hs => ?_
  rw [mem_singleton.mp hs]
  exact hk

/-- A row a transaction holds is free to it. -/
theorem Holds.free (h : t.Holds i k) : t.free i k = true := by
  obtain ⟨r, hr⟩ := h
  rw [Locked.free, hr]
  exact decide_eq_true rfl

/-- The rows nobody holds may change under a transaction. -/
theorem kept_of_rows {rows : Table κ ρ key}
    (h : ∀ k, t.dirty.find? k ≠ none → rows.find? k = t.rows.find? k) :
    t.Kept { t with rows := rows } i := by
  refine ⟨fun _ _ => Iff.rfl, ?_⟩
  rintro k ⟨r, hr⟩
  refine h k ?_
  rw [hr]
  exact nofun

/-- A row is new for its writer when the key is taken by none of its own. -/
theorem Owns.insert (h : t.Owns i l) (hu : t.insert i r = some (some u)) : u.Owns i (l ++ [r]) := by
  obtain ⟨-, hread, rfl⟩ := insert_eq_some hu
  refine h.write fun s hs hkey => ?_
  rw [← hkey, h.read hs] at hread
  cases hread

/-- All the transaction has written are these new rows. -/
structure Adds (t : Locked κ ρ key) (i : Nat) (l : List ρ) : Prop where
  owns : t.Owns i l
  fresh : ∀ r ∈ l, t.rows.find? (key r) = none

theorem Owns.adds (h : t.Owns i []) : t.Adds i [] where
  owns := h
  fresh := fun _ hr => absurd hr not_mem_nil

section

variable (h : t.Adds i l)
include h

theorem Adds.kept (hkept : t.Kept u i) : u.Adds i l where
  owns := h.owns.kept hkept
  fresh := by
    intro r hr
    rw [hkept.rows (key r) (h.owns.holds.mpr ⟨r, hr, rfl⟩)]
    exact h.fresh r hr

theorem Adds.insert (hu : t.insert i r = some (some u)) : u.Adds i (l ++ [r]) := by
  refine ⟨h.owns.insert hu, ?_⟩
  obtain ⟨-, hread, rfl⟩ := insert_eq_some hu
  intro s hs
  rcases mem_append.mp hs with hs | hs
  · exact h.fresh s hs
  obtain rfl := mem_singleton.mp hs
  -- the row is none of its own, so what it read is what is committed
  refine (h.owns.read_other fun s' hs' hkey => ?_).symm.trans hread
  rw [← hkey, h.owns.read hs'] at hread
  cases hread

/-- A commit of new rows takes none back. -/
theorem Adds.commit_old (hr : t.rows.find? k = some r) : (t.commit i).rows.find? k = some r := by
  rw [find?_commit, h.owns.read_other, hr]
  intro s hs hkey
  rw [← hkey, h.fresh s hs] at hr
  cases hr

theorem Adds.commit_new (hr : r ∈ l) : (t.commit i).rows.find? (key r) = some r := by
  rw [find?_commit]
  exact h.owns.read hr

/-- There is nothing else in the table afterwards. -/
theorem Adds.of_commit (hr : (t.commit i).rows.find? k = some r) :
    t.rows.find? k = some r ∨ r ∈ l := by
  rw [find?_commit] at hr
  by_cases hold : t.Holds i k
  · obtain ⟨s, hs⟩ := hold
    have hkey : key s = k := key_of_find? (t := t.dirty) hs
    rw [read_of_holds hs] at hr
    obtain rfl := some.inj hr
    exact .inr ((h.owns s).mp (hkey ▸ hs))
  · rw [read_of_not_holds hold] at hr
    exact .inl hr

end

end Locked

end Locking
