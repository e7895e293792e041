import NagisaLake.BatchCancelProofs

/-! # Listing a batch — the cursor that nobody reads

`list_batch_jobs` gives out the `batch_index` of the last child of a page as
the cursor to the next one, but asks the store for the first page whatever
cursor the client sends.  A batch of one page is listed; of a longer one the
client sees the first page again and again, each time with a cursor.
`listed_iff` is that this is the whole difference. -/

namespace Listing

open Jobs BatchCancel List
open HubStore hiding sampleStore

/-- An entry of the list. -/
structure BatchJobSummary where
  id : String
  batchIndex : Int
  state : JobState
  progress : Option Rat
  workflowId : String
  workflowVersion : String
  createdAt : Int
  deriving DecidableEq

section Batch

variable (cols : Columns) (s : Store) (o b : String) (limit : Option Int)

/-- The entry of a child. -/
def summary (j : JobRow) : BatchJobSummary :=
  ⟨j.id, cols.batchIndex j.key, j.state, j.progress, j.workflowId, j.workflowVersion, j.createdAt⟩

/-- `unwrap_or(BATCH_PAGE_DEFAULT).clamp(1, BATCH_PAGE_MAX)`. -/
def pageLimit : Nat := (max 1 (min (limit.getD 20) batchPageMax)).toNat

/-- `list_batch_jobs`, for a principal who may read the organization's jobs. -/
def listBatchJobs (_cursor : Option String) : List BatchJobSummary × Option String :=
  -- `batch_jobs_page` is called with `None`
  let jobs := batchJobsPage cols s o b (pageLimit limit + 1)
  let items := (jobs.take (pageLimit limit)).map (summary cols)
  (items, if pageLimit limit < jobs.length
    then items.getLast?.map fun j => toString j.batchIndex else none)

/-- A client that calls again with each cursor, `fuel` times at most: what it
    has listed when it came to the end. -/
def follow : Nat → Option String → Option (List BatchJobSummary)
  | 0, _ => none
  | fuel + 1, cursor =>
    match listBatchJobs cols s o b limit cursor with
    | (items, none) => some items
    | (items, some next) => (follow fuel (some next)).map (items ++ ·)

/-- Every child once, in increasing `batch_index`. -/
def Listed (items : List BatchJobSummary) : Prop :=
  items.Perm ((s.jobs.rows.filter (childOf o b)).map (summary cols))
    ∧ items.Pairwise fun i j => i.batchIndex < j.batchIndex

end Batch

section Pages

variable {cols : Columns} {s : Store} {o b : String} {limit : Option Int}

theorem length_children (cols : Columns) :
    (children cols s o b).length = (s.jobs.rows.filter (childOf o b)).length :=
  length_insertionSort ..

/-- The children in the order of an index that is unique. -/
theorem listed_children
    (hunique : ((s.jobs.rows.filter (childOf o b)).map (cols.batchIndex ·.key)).Nodup) :
    Listed cols s o b ((children cols s o b).map (summary cols)) := by
  have hperm := perm_insertionSort (sooner cols) (s.jobs.rows.filter (childOf o b))
  refine ⟨hperm.map _, pairwise_map.mpr ?_⟩
  have hle : (children cols s o b).Pairwise (sooner cols) :=
    haveI : Std.Total (sooner cols) := ⟨fun _ _ => Int.le_total ..⟩
    haveI : IsTrans JobRow (sooner cols) := ⟨fun _ _ _ => Int.le_trans⟩
    pairwise_insertionSort _ _
  have hne : (children cols s o b).Pairwise fun i j =>
      cols.batchIndex i.key ≠ cols.batchIndex j.key :=
    pairwise_map.mp ((hperm.map _).nodup_iff.mpr hunique)
  exact hle.imp₂ (fun _ _ hle hne => Int.lt_iff_le_and_ne.mpr ⟨hle, hne⟩) hne

/-- One page takes the whole batch. -/
theorem listBatchJobs_of_le (cursor : Option String)
    (h : (children cols s o b).length ≤ pageLimit limit) :
    listBatchJobs cols s o b limit cursor = ((children cols s o b).map (summary cols), none) := by
  have hall : batchJobsPage cols s o b (pageLimit limit + 1) = children cols s o b :=
    take_of_length_le (by omega)
  simp only [listBatchJobs, hall, take_of_length_le h, if_neg (Nat.not_lt.mpr h)]

/-- A longer batch leaves a cursor on every page. -/
theorem listBatchJobs_of_lt (cursor : Option String)
    (h : pageLimit limit < (children cols s o b).length) :
    ∃ next, (listBatchJobs cols s o b limit cursor).2 = some next := by
  have hlen : (batchJobsPage cols s o b (pageLimit limit + 1)).length = pageLimit limit + 1 := by
    rw [batchJobsPage, length_take]
    omega
  have hpos : 0 < pageLimit limit := by
    simp only [pageLimit, batchPageMax]
    omega
  simp only [listBatchJobs, hlen, Nat.lt_succ_self, if_true]
  have hne : (batchJobsPage cols s o b (pageLimit limit + 1)).take (pageLimit limit) ≠ [] := by
    rw [ne_eq, ← length_eq_zero_iff, length_take, hlen]
    omega
  exact ⟨_, by rw [getLast?_map, getLast?_eq_some_getLast hne]; rfl⟩

theorem follow_of_lt (h : pageLimit limit < (children cols s o b).length) (fuel : Nat) :
    ∀ cursor, follow cols s o b limit fuel cursor = none := by
  induction fuel with
  | zero => exact fun _ => rfl
  | succ fuel ih =>
    intro cursor
    obtain ⟨next, hnext⟩ := listBatchJobs_of_lt cursor h
    rw [follow]
    split
    · next heq => cases hnext.symm.trans (congrArg Prod.snd heq)
    · rw [ih, Option.map_none]

/-- **A BATCH OF ONE PAGE** is listed, and no other comes to an end.
    `batch_index` is unique by the index of the table. -/
theorem listed_iff
    (hunique : ((s.jobs.rows.filter (childOf o b)).map (cols.batchIndex ·.key)).Nodup) :
    (∃ fuel items, follow cols s o b limit fuel none = some items ∧ Listed cols s o b items)
      ↔ (s.jobs.rows.filter (childOf o b)).length ≤ pageLimit limit := by
  rw [← length_children cols]
  constructor
  · rintro ⟨fuel, items, hfollow, -⟩
    by_contra hlong
    rw [follow_of_lt (Nat.not_le.mp hlong)] at hfollow
    cases hfollow
  · intro hle
    refine ⟨1, _, ?_, listed_children hunique⟩
    rw [follow, listBatchJobs_of_le none hle]

end Pages

/-- A batch of two. -/
def sampleStore : Store :=
  { HubStore.sampleStore with
    jobs := (KeyedTable.Table.empty.put (waitingRow "first")).put (waitingRow "second") }

/-- Two children fit the default page. -/
theorem sampleStore_listed : ∃ fuel items,
    follow sampleColumns sampleStore "provider" "batch" none fuel none = some items
      ∧ Listed sampleColumns sampleStore "provider" "batch" items :=
  (listed_iff (by decide)).mpr (by decide)

/-- On pages of one child the client never comes to the second. -/
theorem sampleStore_endless : ¬ ∃ fuel items,
    follow sampleColumns sampleStore "provider" "batch" (some 1) fuel none = some items
      ∧ Listed sampleColumns sampleStore "provider" "batch" items := by
  rintro ⟨fuel, items, hfollow, -⟩
  rw [follow_of_lt (by decide)] at hfollow
  cases hfollow

end Listing
