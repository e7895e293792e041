import NagisaLake.LockingProofs
import NagisaLake.PoolProofs
import NagisaLake.RunProofs
import NagisaLake.StoreProofs

/-! # Retried submissions — one record per key, statement by statement

`commit_new_job` and `commit_new_batch` look for the record of their
idempotency key, lock the usage row of the organization, look again, and
write the record at the end.  Here each of them is the sequence of its
statements, under READ COMMITTED, and any number of them are under way:

* the primary key of the records lets one creator through
  (`Tx.name`, `Apart.take`);
* records are only ever added, so an answer read from one stays right
  (`Answers.later`);
* the counters are written under the usage lock, so they are those before
  charged once for each creator, in the order of the commits
  (`Counted`). -/

namespace Retries

open Jobs KeyedTable Locking Pools Runs HubStore List Option
open Locked hiding insert

/-! ## Requests -/

/-- `commit_new_job` or `commit_new_batch`; each has its own table of records. -/
inductive Kind where
  | job
  | batch
  deriving DecidableEq, Repr

/-- What a lookup that finds another request's hash answers. -/
def Kind.conflict : Kind → String
  | .job => "idempotency key was used for a different request"
  | .batch => "idempotency key conflict: request hash mismatch"

/-- `IdempotencyInsert` and `BatchIdempotencyInsert`: the target is the id of what is created. -/
structure IdempotencyInsert where
  organizationId : String
  actorKind : String
  actorId : String
  endpoint : String
  idempotencyKey : String
  requestHash : String
  deriving DecidableEq, Repr

/-- A record, and the table it stands in. -/
structure Record where
  kind : Kind
  row : IdempotencyRow
  deriving DecidableEq, Repr

abbrev RecordKey := Kind × String × String × String × String × String

def Record.key (r : Record) : RecordKey := (r.kind, r.row.key)

/-- The record of a request. -/
def IdempotencyInsert.record (i : IdempotencyInsert) (kind : Kind) (target : String) : Record where
  kind := kind
  row := ⟨i.organizationId, i.actorKind, i.actorId, i.endpoint,
    i.idempotencyKey, i.requestHash, target⟩

/-- Where it stands. -/
def IdempotencyInsert.key (i : IdempotencyInsert) (kind : Kind) : RecordKey :=
  (kind, i.organizationId, i.actorKind, i.actorId, i.endpoint, i.idempotencyKey)

@[simp] theorem IdempotencyInsert.record_key (i : IdempotencyInsert)
    (kind : Kind) (target : String) :
    (i.record kind target).key = i.key kind := rfl

/-- The arguments of a call. -/
inductive Request where
  | job (input : JobUpsert) (idempotency : Option IdempotencyInsert)
  | batch (row : BatchRow) (children : List BatchChildJob)
      (idempotency : Option IdempotencyInsert) (now : Int)

namespace Request

def kind : Request → Kind
  | .job .. => .job
  | .batch .. => .batch

def organizationId : Request → String
  | .job input _ => input.organizationId
  | .batch row .. => row.organizationId

/-- The id of the job or of the batch. -/
def id : Request → String
  | .job input _ => input.id
  | .batch row .. => row.id

def idempotency : Request → Option IdempotencyInsert
  | .job _ idempotency => idempotency
  | .batch _ _ idempotency _ => idempotency

/-- The number of jobs. -/
def jobs : Request → Int
  | .job .. => 1
  | .batch _ children .. => children.length

def now : Request → Int
  | .job input _ => input.now
  | .batch _ _ _ now => now

/-- Where the record of the request stands. -/
def key (q : Request) : Option RecordKey :=
  q.idempotency.map fun i => i.key q.kind

/-- The record of the request. -/
def record (q : Request) : Option Record :=
  q.idempotency.map fun i => i.record q.kind q.id

/-- The limit the request would break. -/
def exceeded (q : Request) (policy : PolicyRow) (usage : UsageRow) : Option String :=
  let period := periodJobs policy usage q.now
  match q with
  | .job .. =>
    if usage.activeJobs ≥ policy.maxConcurrentJobs
        ∨ period ≥ policy.maxJobsPerPeriod then some "jobs" else none
  | .batch .. =>
    if q.jobs > policy.maxBatchJobs then some "batch_limit"
    else if usage.activeJobs + q.jobs > policy.maxConcurrentJobs then
      some "inflight_limit"
    else if period + q.jobs > policy.maxJobsPerPeriod then
      some "period_limit"
    else none

/-- The counters once the request is charged; `usage` is the row it has read,
    `u` the one it writes. -/
def charge (q : Request) (policy : PolicyRow) (usage u : UsageRow) :
    UsageRow :=
  let period := periodJobs policy usage q.now
  match q with
  | .job .. => u.charge q.jobs period (if period = 0 then q.now else u.periodStartedAt)
  | .batch .. => u.charge q.jobs period (if saturate (q.now - usage.periodStartedAt)
          ≥ saturate (policy.periodSeconds * 1000)
        then q.now else usage.periodStartedAt)

end Request

/-! ## Statements -/

/-- The tables that get new rows. -/
inductive Relation where
  | jobs
  | jobBatches
  | jobDispatchQueue
  | dispatchOutbox
  deriving DecidableEq, Repr

/-- A new row of one of them. -/
inductive NewRow where
  | job (row : JobRow)
  | batch (row : BatchRow)
  | queue (row : QueueRow)
  | outbox (row : OutboxRow)
  deriving DecidableEq

abbrev NewKey := Relation × Key × Nat

def NewRow.key : NewRow → NewKey
  | .job row => (.jobs, row.key, 0)
  | .batch row => (.jobBatches, row.key, 0)
  | .queue row => (.jobDispatchQueue, row.key, 0)
  | .outbox row => (.dispatchOutbox, row.key)

/-- A statement that writes. -/
inductive Statement where
  | insert (row : NewRow)
  | charge
  | record (r : Record)
  deriving DecidableEq

/-- The statements of a child of a batch. -/
def childStatements (batch : BatchRow) (now : Int) (c : BatchChildJob) : List Statement :=
  [.insert (.job (c.row batch now)), .insert (.queue
      ⟨batch.organizationId, c.jobId, now, 0, now, none, none⟩)]

/-- What a request writes once it is admitted, in order. -/
def Request.statements (q : Request) : List Statement :=
  match q with
  | .job input _ =>
    [.insert (.job input.row), .charge,
      .insert (.outbox ⟨input.organizationId, input.id, input.attempt,
        "pending", saturate (input.now + initialDispatchDelayMs)⟩)]
      ++ q.record.toList.map .record
  | .batch row children _ now =>
    .insert (.batch { row with totalJobs := q.jobs }) :: children.flatMap (childStatements row now)
      ++ .charge :: q.record.toList.map .record

/-! ## Transactions -/

/-- The tables.  Nobody here writes the policies. -/
structure Db where
  policies : Table String PolicyRow PolicyRow.organizationId
  usage : Locked String UsageRow UsageRow.organizationId
  created : Locked NewKey NewRow NewRow.key
  records : Locked RecordKey Record Record.key

def Db.commit (db : Db) (i : Nat) : Db :=
  { db with
    usage := db.usage.commit i
    created := db.created.commit i
    records := db.records.commit i }

def Db.rollback (db : Db) (i : Nat) : Db :=
  { db with
    usage := db.usage.rollback i
    created := db.created.rollback i
    records := db.records.rollback i }

/-- The next statement of a call, with what it has read so far. -/
inductive Tx where
  | look (q : Request)
  | lookHash (q : Request) (found : String)
  | lockPolicy (q : Request)
  | lockUsage (q : Request) (policy : PolicyRow)
  | lookAgain (q : Request) (policy : PolicyRow) (usage : UsageRow)
  | enforce (q : Request) (policy : PolicyRow) (usage : UsageRow)
  | write (q : Request) (policy : PolicyRow) (usage : UsageRow) (pc : Nat)
  | finish (q : Request) (found : String)
  /-- Its rows are committed; the answer may be lost on the way. -/
  | created (q : Request) (reported : Bool)
  /-- It has created nothing. -/
  | ended (q : Request) (answer : Except StoreError String)

/-- What the statements on other tables answer: the device policy, and the input artifacts. -/
structure Reply where
  admission : Except StoreError Unit
  inputs : Except StoreError Unit

/-- An error: the transaction is rolled back. -/
def fail (db : Db) (i : Nat) (q : Request) (e : StoreError) : Db × Tx :=
  (db.rollback i, .ended q (.error e))

/-- What is done with the hash of a record. -/
def compare (db : Db) (i : Nat) (q : Request) (insert : IdempotencyInsert)
    (hash : String) (same : Db × Tx) : Db × Tx :=
  if hash = insert.requestHash then same
  else fail db i q (.conflict q.kind.conflict)

/-- The first lookup.  A batch reads the hash with a statement of its own. -/
def look (db : Db) (i : Nat) (q : Request) : Db × Tx :=
  match q.idempotency with
  | none => (db, .lockPolicy q)
  | some insert =>
    match db.records.read i (insert.key q.kind) with
    | none => (db, .lockPolicy q)
    | some r =>
      match q.kind with
      | .job => compare db i q insert r.row.requestHash (db, .finish q r.row.target)
      | .batch => (db, .lookHash q r.row.target)

/-- The hash of the record a batch has found; the transaction is dropped without a commit. -/
def lookHash (db : Db) (i : Nat) (q : Request) (found : String) : Db × Tx :=
  match q.idempotency with
  | none => fail db i q (.database "no row returned")
  | some insert =>
    match db.records.read i (insert.key q.kind) with
    | none => fail db i q (.database "no row returned")
    | some r => compare db i q insert r.row.requestHash (db.rollback i, .ended q (.ok found))

/-- `SELECT … FROM quota_policies … FOR SHARE`. -/
def lockPolicy (db : Db) (i : Nat) (q : Request) : Db × Tx :=
  match db.policies.find? q.organizationId with
  | some policy => (db, .lockUsage q policy)
  | none => fail db i q (match q.kind with
      | .job => .notFound "quota policy"
      | .batch => .database "no row returned")

/-- `SELECT … FROM quota_usage … FOR UPDATE`. -/
def lockUsage (db : Db) (i : Nat) (q : Request) (policy : PolicyRow) : Option (Db × Tx) :=
  (db.usage.await i q.organizationId).map fun
    | none => fail db i q (.database "no row returned")
    | some u => ({ db with usage := db.usage.write i u },
        .lookAgain q policy u)

/-- The second lookup. -/
def lookAgain (db : Db) (i : Nat) (q : Request) (policy : PolicyRow) (usage : UsageRow) : Db × Tx :=
  match q.idempotency with
  | none => (db, .enforce q policy usage)
  | some insert =>
    match db.records.read i (insert.key q.kind) with
    | none => (db, .enforce q policy usage)
    | some r => compare db i q insert r.row.requestHash (db, .finish q r.row.target)

/-- The device policy, the limits, and the inputs. -/
def enforce (db : Db) (i : Nat) (q : Request) (policy : PolicyRow)
    (usage : UsageRow) (reply : Reply) : Db × Tx :=
  match reply.admission with
  | .error e => fail db i q e
  | .ok () =>
    match q.exceeded policy usage with
    | some limit => fail db i q (.quotaExceeded limit)
    | none =>
      match reply.inputs with
      | .error e => fail db i q e
      | .ok () => (db, .write q policy usage 0)

/-- One writing statement; `none` while it waits for a row. -/
def execute (db : Db) (i : Nat) (q : Request) (policy : PolicyRow)
    (usage : UsageRow) (next : Tx) : Statement → Option (Db × Tx)
  | .insert row => (db.created.insert i row).map fun
      | none => fail db i q (.database "duplicate key value")
      | some t => ({ db with created := t }, next)
  | .charge => (db.usage.await i q.organizationId).map fun
      | none => (db, next)
      | some u => ({ db with
          usage := db.usage.write i (q.charge policy usage u) }, next)
  | .record r => (db.records.insert i r).map fun
      | none => fail db i q (.database "duplicate key value")
      | some t => ({ db with records := t }, next)

/-- One step of a call; `none` while it waits, and after its end. -/
def taskStep (db : Db) (i : Nat) : Tx → Reply → Option (Db × Tx)
  | .look q, _ => some (look db i q)
  | .lookHash q found, _ => some (lookHash db i q found)
  | .lockPolicy q, _ => some (lockPolicy db i q)
  | .lockUsage q policy, _ => lockUsage db i q policy
  | .lookAgain q policy usage, _ => some (lookAgain db i q policy usage)
  | .enforce q policy usage, reply => some (enforce db i q policy usage reply)
  | .write q policy usage pc, _ =>
    match q.statements[pc]? with
    | none => some (db.commit i, .created q true)
    | some statement => execute db i q policy usage (.write q policy usage (pc + 1)) statement
  | .finish q found, _ => some (db.commit i, .ended q (.ok found))
  | .created .., _ | .ended .., _ => none

/-- The request of a call. -/
def Tx.request : Tx → Request
  | .look q | .lookHash q _ | .lockPolicy q | .lockUsage q _
  | .lookAgain q _ _ | .enforce q _ _ | .write q _ _ _ | .finish q _
  | .created q _ | .ended q _ => q

/-- A call that has not ended may be lost: a deadlock, a failed statement, a broken connection. -/
def lose (db : Db) (i : Nat) : Tx → Option (Db × Tx)
  | .created .. | .ended .. => none
  | t => some (fail db i t.request (.database "connection lost"))

/-- The commit is done and its answer lost. -/
def loseAnswer (db : Db) (i : Nat) : Tx → Option (Db × Tx)
  | .write q _ _ pc =>
    match q.statements[pc]? with
    | none => some (db.commit i, .created q false)
    | some _ => none
  | .finish q _ => some (db.commit i, .ended q (.error (.database "connection lost")))
  | _ => none

/-- A call begins, takes a step, or loses its connection. -/
inductive Act where
  | begin (q : Request)
  | next (i : Nat) (reply : Reply)
  | lose (i : Nat)
  | loseAnswer (i : Nat)

/-- The transactions are numbered as they begin. -/
def step (p : Pool Db Tx) : Act → Option (Pool Db Tx)
  | .begin q => some (p.spawn (.look q))
  | .next i reply => p.advance (fun db t r => taskStep db i t r) i reply
  | .lose i => p.advance (fun db t (_ : Unit) => lose db i t) i ()
  | .loseAnswer i => p.advance (fun db t (_ : Unit) => loseAnswer db i t) i ()

/-- No transaction is open. -/
structure Start (db : Db) : Prop where
  usage : db.usage.dirty = Table.empty
  created : db.created.dirty = Table.empty
  records : db.records.dirty = Table.empty

/-! ## What a call has written -/

/-- The rows the statements insert. -/
def inserted (done : List Statement) : List NewRow :=
  done.filterMap fun
    | .insert row => some row
    | _ => none

/-- The records they write. -/
def recorded (done : List Statement) : List Record :=
  done.filterMap fun
    | .record r => some r
    | _ => none

/-- The usage row after them. -/
def charged (q : Request) (policy : PolicyRow) (usage : UsageRow)
    (done : List Statement) : UsageRow :=
  if .charge ∈ done then q.charge policy usage usage else usage

@[simp] theorem Request.charge_key (q : Request) (policy : PolicyRow) (usage u : UsageRow) :
    (q.charge policy usage u).organizationId = u.organizationId := by
  cases q <;> rfl

@[simp] theorem charged_key (q : Request) (policy : PolicyRow)
    (usage : UsageRow) (done : List Statement) :
    (charged q policy usage done).organizationId = usage.organizationId := by
  rw [charged]
  split
  · exact Request.charge_key ..
  · rfl

theorem recorded_statements (q : Request) : recorded q.statements = q.record.toList := by
  have hrecords : ∀ l : List Record, recorded (l.map .record) = l := by
    intro l
    induction l with
    | nil => rfl
    | cons r l ih => exact congrArg (r :: ·) ih
  have hchildren : ∀ (b : BatchRow) (now : Int) (cs : List BatchChildJob) (rest : List Statement),
      recorded (cs.flatMap (childStatements b now) ++ rest) = recorded rest := by
    intro b now cs rest
    induction cs with
    | nil => rfl
    | cons c cs ih => exact ih
  cases q with
  | job input idem => exact hrecords _
  | batch row children idem now =>
    exact (hchildren row now children _).trans (hrecords _)

/-- Every request is charged once. -/
theorem count_charge (q : Request) : q.statements.count .charge = 1 := by
  have hrecords : ∀ l : List Record, (l.map Statement.record).count .charge = 0 := by
    intro l
    rw [count_eq_zero, List.mem_map]
    rintro ⟨r, -, hr⟩
    cases hr
  cases q with
  | job input idem =>
    rw [Request.statements, count_append, hrecords]
    rfl
  | batch row children idem now =>
    have hchildren : (children.flatMap (childStatements row now)).count .charge = 0 := by
      rw [count_eq_zero, mem_flatMap]
      rintro ⟨c, -, hc⟩
      simp [childStatements] at hc
    simp [Request.statements, hchildren, hrecords]

theorem charge_mem_statements (q : Request) : .charge ∈ q.statements := by
  rw [← count_pos_iff, count_charge]
  exact Nat.one_pos

/-- When the charge is next it has not been executed. -/
theorem charge_once {q : Request} {pc : Nat} (h : q.statements[pc]? = some .charge) :
    .charge ∉ q.statements.take pc := by
  obtain ⟨hlt, hget⟩ := List.getElem?_eq_some_iff.mp h
  have hcount := count_charge q
  rw [← take_append_drop pc q.statements, drop_eq_getElem_cons hlt, hget, count_append,
    count_cons_self] at hcount
  rw [← count_eq_zero]
  omega

/-- The versions of a transaction, table by table. -/
structure Written (db : Db) (i : Nat) (us : List UsageRow)
    (rows : List NewRow) (rs : List Record) : Prop where
  usage : db.usage.Owns i us
  created : db.created.Adds i rows
  records : db.records.Adds i rs

/-- The policy and the usage row of the request are what it has read. -/
structure Locks (db : Db) (q : Request) (policy : PolicyRow)
    (usage : UsageRow) : Prop where
  policy : db.policies.find? q.organizationId = some policy
  usage : db.usage.rows.find? q.organizationId = some usage

/-- The record of the request is committed, and has its hash. -/
def Answers (db : Db) (q : Request) (found : String) : Prop :=
  ∃ insert r, q.idempotency = some insert ∧ db.records.rows.find? (insert.key q.kind) = some r
    ∧ r.row.requestHash = insert.requestHash ∧ r.row.target = found

/-- Everything the request writes is committed. -/
structure Stored (db : Db) (q : Request) : Prop where
  rows : ∀ row ∈ inserted q.statements, db.created.rows.find? row.key = some row
  record : ∀ r ∈ q.record, db.records.rows.find? r.key = some r

/-- What holds of a call, by the statement it is at. -/
def TaskInv (db : Db) (i : Nat) : Tx → Prop
  | .look _ | .lockPolicy _ => Written db i [] [] []
  | .lockUsage q policy => Written db i [] [] [] ∧ db.policies.find? q.organizationId = some policy
  | .lookHash q found => Written db i [] [] [] ∧ ∃ insert r, q.idempotency = some insert
        ∧ db.records.rows.find? (insert.key q.kind) = some r
        ∧ r.row.target = found
  | .lookAgain q policy usage | .enforce q policy usage =>
    Written db i [usage] [] [] ∧ Locks db q policy usage
  | .write q policy usage pc =>
    Written db i [charged q policy usage (q.statements.take pc)]
        (inserted (q.statements.take pc)) (recorded (q.statements.take pc))
      ∧ Locks db q policy usage
  | .finish q found => (∃ us, Written db i us [] []
      ∧ ∀ u ∈ us, db.usage.rows.find? u.organizationId = some u)
      ∧ Answers db q found
  | .created q _ => Written db i [] [] [] ∧ Stored db q
  | .ended q answer => Written db i [] [] [] ∧ ∀ found, answer = .ok found → Answers db q found

/-! ## What a step does to the others -/

/-- What a call has written and read is as it was, and nothing committed is taken back. -/
structure Kept (db db' : Db) (j : Nat) : Prop where
  policies : db'.policies = db.policies
  usage : db.usage.Kept db'.usage j
  created : db.created.Kept db'.created j
  records : db.records.Kept db'.records j
  rows : ∀ k row, db.created.rows.find? k = some row → db'.created.rows.find? k = some row
  found : ∀ k r, db.records.rows.find? k = some r → db'.records.rows.find? k = some r

section Kept

variable {db db' : Db} {i j : Nat} {q : Request} {policy : PolicyRow}
  {usage : UsageRow}

theorem Kept.written {us : List UsageRow} {rows : List NewRow}
    {rs : List Record} (h : Kept db db' j) (hw : Written db j us rows rs) :
    Written db' j us rows rs where
  usage := hw.usage.kept h.usage
  created := hw.created.kept h.created
  records := hw.records.kept h.records

/-- The usage row is locked, so it is still what was read. -/
theorem Kept.locks {us : List UsageRow} {rows : List NewRow}
    {rs : List Record} (h : Kept db db' j) (hw : Written db j us rows rs)
    (hl : Locks db q policy usage)
    (hu : ∃ u ∈ us, u.organizationId = q.organizationId) :
    Locks db' q policy usage where
  policy := by rw [h.policies]; exact hl.policy
  usage := by
    rw [h.usage.rows _ (hw.usage.holds.mpr hu)]
    exact hl.usage

theorem Answers.later {found : String} (h : Kept db db' j)
    (ha : Answers db q found) : Answers db' q found := by
  obtain ⟨insert, r, hinsert, hr, hhash, htarget⟩ := ha
  exact ⟨insert, r, hinsert, h.found _ _ hr, hhash, htarget⟩

theorem Stored.later (h : Kept db db' j) (hs : Stored db q) : Stored db' q where
  rows := fun row hrow => h.rows _ _ (hs.rows row hrow)
  record := fun r hr => h.found _ _ (hs.record r hr)

theorem Locks.key (hl : Locks db q policy usage) : usage.organizationId = q.organizationId :=
  Table.key_of_find? hl.usage

/-- What holds of a call is not touched by the others. -/
theorem Kept.taskInv {t : Tx} (h : Kept db db' j) (ht : TaskInv db j t) : TaskInv db' j t := by
  cases t with
  | look q | lockPolicy q => exact h.written ht
  | lockUsage q policy =>
    exact ⟨h.written ht.1, by rw [h.policies]; exact ht.2⟩
  | lookHash q found =>
    obtain ⟨hw, insert, r, hinsert, hr, htarget⟩ := ht
    exact ⟨h.written hw, insert, r, hinsert, h.found _ _ hr, htarget⟩
  | lookAgain q policy usage | enforce q policy usage =>
    exact ⟨h.written ht.1, h.locks ht.1 ht.2 ⟨usage, mem_singleton_self _, ht.2.key⟩⟩
  | write q policy usage pc =>
    refine ⟨h.written ht.1, h.locks ht.1 ht.2 ⟨_, mem_singleton_self _, ?_⟩⟩
    rw [charged_key]
    exact ht.2.key
  | finish q found =>
    obtain ⟨⟨us, hw, hus⟩, ha⟩ := ht
    refine ⟨⟨us, h.written hw, fun u hu => ?_⟩, ha.later h⟩
    rw [h.usage.rows _ (hw.usage.holds.mpr ⟨u, hu, rfl⟩)]
    exact hus u hu
  | created q reported => exact ⟨h.written ht.1, ht.2.later h⟩
  | ended q answer =>
    exact ⟨h.written ht.1, fun found hf => (ht.2 found hf).later h⟩

end Kept

/-! ## What a step does -/

/-- The request whose rows a call has committed. -/
def Tx.creator : Tx → Option Request
  | .created q _ => some q
  | _ => none

/-- A step that commits nothing new. -/
structure Quiet (db db' : Db) (i : Nat) : Prop where
  policies : db'.policies = db.policies := by rfl
  others : ∀ j, j ≠ i → db.usage.Kept db'.usage j
    ∧ db.created.Kept db'.created j ∧ db.records.Kept db'.records j
  usage : ∀ k, db'.usage.rows.find? k = db.usage.rows.find? k := by exact fun _ => rfl
  created : ∀ k, db'.created.rows.find? k = db.created.rows.find? k := by exact fun _ => rfl
  records : ∀ k, db'.records.rows.find? k = db.records.rows.find? k := by exact fun _ => rfl

section Quiet

variable {db db' : Db} {i j : Nat}

theorem Quiet.kept (h : Quiet db db' i) (hj : j ≠ i) : Kept db db' j where
  policies := h.policies
  usage := (h.others j hj).1
  created := (h.others j hj).2.1
  records := (h.others j hj).2.2
  rows := fun k _ hrow => (h.created k).trans hrow
  found := fun k _ hr => (h.records k).trans hr

theorem quiet_refl (db : Db) (i : Nat) : Quiet db db i where
  others := fun _ _ => ⟨.refl .., .refl .., .refl ..⟩

theorem quiet_rollback (db : Db) (i : Nat) : Quiet db (db.rollback i) i where
  others := fun _ hj => ⟨kept_rollback hj, kept_rollback hj, kept_rollback hj⟩

theorem quiet_writeUsage {u : UsageRow} (hfree : db.usage.free i u.organizationId = true) :
    Quiet db { db with usage := db.usage.write i u } i where
  others := fun _ hj => ⟨kept_write hfree hj, .refl .., .refl ..⟩

theorem quiet_insertRow {row : NewRow} {t : Locked NewKey NewRow NewRow.key}
    (h : db.created.insert i row = some (some t)) :
    Quiet db { db with created := t } i := by
  obtain ⟨hfree, -, rfl⟩ := insert_eq_some h
  exact { others := fun _ hj => ⟨.refl .., kept_write hfree hj, .refl ..⟩ }

theorem quiet_insertRecord {r : Record}
    {t : Locked RecordKey Record Record.key}
    (h : db.records.insert i r = some (some t)) :
    Quiet db { db with records := t } i := by
  obtain ⟨hfree, -, rfl⟩ := insert_eq_some h
  exact { others := fun _ hj => ⟨.refl .., .refl .., kept_write hfree hj⟩ }

/-- The commit of a call that has only locked its usage row. -/
theorem quiet_commit {us : List UsageRow} (hw : Written db i us [] [])
    (hus : ∀ u ∈ us, db.usage.rows.find? u.organizationId = some u) :
    Quiet db (db.commit i) i where
  others := fun _ hj => ⟨kept_commit hj, kept_commit hj, kept_commit hj⟩
  usage := by
    intro k
    show (db.usage.commit i).rows.find? k = _
    rw [find?_commit]
    by_cases hold : ∃ u ∈ us, u.organizationId = k
    · obtain ⟨u, hu, rfl⟩ := hold
      rw [hw.usage.read hu, hus u hu]
    · exact hw.usage.read_other fun u hu hk => hold ⟨u, hu, hk⟩
  created := hw.created.owns.find?_commit
  records := hw.records.owns.find?_commit

end Quiet

/-- A step that creates nothing, and what holds of the call after it. -/
structure Leads (db : Db) (i : Nat) (r : Db × Tx) : Prop where
  quiet : Quiet db r.1 i
  inv : TaskInv r.1 i r.2
  idle : r.2.creator = none

section Leads

variable {db : Db} {i : Nat} {t : Tx} {q : Request} {policy : PolicyRow}
  {usage : UsageRow}

theorem written_rollback : Written (db.rollback i) i [] [] [] where
  usage := owns_rollback
  created := owns_rollback.adds
  records := owns_rollback.adds

theorem written_commit : Written (db.commit i) i [] [] [] where
  usage := owns_commit
  created := owns_commit.adds
  records := owns_commit.adds

theorem leads_fail (e : StoreError) : Leads db i (fail db i q e) where
  quiet := quiet_rollback db i
  inv := ⟨written_rollback, nofun⟩
  idle := rfl

theorem leads_stay (hinv : TaskInv db i t) (hidle : t.creator = none) : Leads db i (db, t) where
  quiet := quiet_refl db i
  inv := hinv
  idle := hidle

theorem leads_compare {insert : IdempotencyInsert} {hash : String}
    {same : Db × Tx} (h : hash = insert.requestHash → Leads db i same) :
    Leads db i (compare db i q insert hash same) := by
  rw [compare]
  split
  · next hhash => exact h hhash
  · exact leads_fail _

/-- A call without versions sees the committed records. -/
theorem Written.find? {us : List UsageRow} {rows : List NewRow} {k : RecordKey}
    (hw : Written db i us rows []) :
    db.records.read i k = db.records.rows.find? k :=
  hw.records.owns.read_other fun _ hr => absurd hr not_mem_nil

theorem leads_look (h : TaskInv db i (.look q)) : Leads db i (look db i q) := by
  rw [look]
  split
  · exact leads_stay h rfl
  next insert hinsert =>
  rw [Written.find? h]
  split
  · exact leads_stay h rfl
  next r hr =>
  split
  · refine leads_compare fun hhash =>
      leads_stay ⟨⟨[], h, ?_⟩, ?_⟩ rfl
    · exact fun u hu => absurd hu not_mem_nil
    · exact ⟨insert, r, hinsert, hr, hhash, rfl⟩
  · exact leads_stay ⟨h, insert, r, hinsert, hr, rfl⟩ rfl

/-- The record a batch has found is still there when its hash is read. -/
theorem leads_lookHash {found : String} (h : TaskInv db i (.lookHash q found)) :
    Leads db i (lookHash db i q found) := by
  obtain ⟨hw, insert, r, hinsert, hr, htarget⟩ := h
  rw [lookHash, hinsert]
  show Leads db i (match db.records.read i (insert.key q.kind) with
    | none => _
    | some r => _)
  rw [hw.find?, hr]
  refine leads_compare fun hhash => ?_
  refine ⟨quiet_rollback db i, ⟨written_rollback, fun f hf => ?_⟩, rfl⟩
  cases hf
  exact ⟨insert, r, hinsert, hr, hhash, htarget⟩

theorem leads_lockPolicy (h : TaskInv db i (.lockPolicy q)) : Leads db i (lockPolicy db i q) := by
  rw [lockPolicy]
  split
  · next policy hpolicy => exact leads_stay ⟨h, hpolicy⟩ rfl
  · exact leads_fail _

theorem leads_lockUsage {r : Db × Tx} (h : TaskInv db i (.lockUsage q policy))
    (hr : lockUsage db i q policy = some r) :
    Leads db i r := by
  obtain ⟨hw, hpolicy⟩ := h
  obtain ⟨row, hfree, hread, rfl⟩ := map_await_eq_some hr
  cases row with
  | none => exact leads_fail _
  | some u =>
    have hkey : u.organizationId = q.organizationId :=
      key_of_read hread
    rw [hw.usage.read_other fun _ hr => absurd hr not_mem_nil] at hread
    refine ⟨quiet_writeUsage (hkey ▸ hfree), ⟨?_, hpolicy, hread⟩, rfl⟩
    exact ⟨hw.usage.write fun _ hs => absurd hs not_mem_nil, hw.created, hw.records⟩

theorem leads_lookAgain (h : TaskInv db i (.lookAgain q policy usage)) :
    Leads db i (lookAgain db i q policy usage) := by
  rw [lookAgain]
  split
  · exact leads_stay h rfl
  · next insert hinsert =>
    rw [h.1.find?]
    split
    · exact leads_stay h rfl
    · next r hr =>
      refine leads_compare fun hhash =>
        leads_stay ⟨⟨[usage], h.1, fun u hu => ?_⟩, ?_⟩ rfl
      · obtain rfl := mem_singleton.mp hu
        rw [h.2.key]
        exact h.2.usage
      · exact ⟨insert, r, hinsert, hr, hhash, rfl⟩

theorem leads_enforce {reply : Reply} (h : TaskInv db i (.enforce q policy usage)) :
    Leads db i (enforce db i q policy usage reply) := by
  rw [enforce]
  split
  · exact leads_fail _
  split
  · exact leads_fail _
  split
  · exact leads_fail _
  refine leads_stay ⟨?_, h.2⟩ rfl
  have hnone : charged q policy usage [] = usage := rfl
  exact h.1

theorem leads_finish {found : String} {answer : Except StoreError String}
    (h : TaskInv db i (.finish q found))
    (hanswer : ∀ f, answer = .ok f → f = found) :
    Leads db i (db.commit i, .ended q answer) := by
  obtain ⟨⟨us, hw, hus⟩, ha⟩ := h
  have hquiet := quiet_commit hw hus
  refine ⟨hquiet, ⟨written_commit, fun f hf => ?_⟩, rfl⟩
  obtain rfl := hanswer f hf
  obtain ⟨insert, r, hinsert, hr, hhash, htarget⟩ := ha
  exact ⟨insert, r, hinsert, (hquiet.records _).trans hr, hhash, htarget⟩

/-- A statement adds to what the call has written. -/
theorem leads_execute {pc : Nat} {statement : Statement} {r : Db × Tx}
    (h : TaskInv db i (.write q policy usage pc))
    (hnext : q.statements[pc]? = some statement)
    (hr : execute db i q policy usage (.write q policy usage (pc + 1))
      statement = some r) : Leads db i r := by
  obtain ⟨hw, hl⟩ := h
  have htake : q.statements.take (pc + 1) = q.statements.take pc ++ [statement] := by
    rw [take_add_one, hnext]
    rfl
  cases statement with
  | insert row =>
    obtain ⟨t, ht, rfl⟩ := map_eq_some_iff.mp hr
    cases t with
    | none => exact leads_fail _
    | some t =>
      refine ⟨quiet_insertRow ht, ⟨?_, hl.policy, hl.usage⟩, rfl⟩
      rw [htake]
      refine ⟨?_, ?_, ?_⟩
      · simpa [charged] using hw.usage
      · simpa [inserted] using hw.created.insert ht
      · simpa [recorded] using hw.records
  | charge =>
    obtain ⟨row, hfree, hread, rfl⟩ := map_await_eq_some hr
    -- the only version of the call is the row it has locked
    have hcharged : charged q policy usage (q.statements.take pc) = usage :=
      if_neg (charge_once hnext)
    rw [hcharged] at hw
    have hown := hw.usage.read (mem_singleton_self usage)
    rw [hl.key] at hown
    obtain rfl : some usage = row := hown.symm.trans hread
    refine ⟨quiet_writeUsage ?_, ⟨?_, hl.policy, hl.usage⟩, rfl⟩
    · rw [Request.charge_key, hl.key]
      exact hfree
    rw [htake]
    refine ⟨?_, ?_, ?_⟩
    · have hafter : charged q policy usage (q.statements.take pc ++ [.charge])
          = q.charge policy usage usage :=
        if_pos (mem_append_right _ (mem_singleton_self _))
      rw [hafter]
      exact hw.usage.rewrite (Request.charge_key ..)
    · simpa [inserted] using hw.created
    · simpa [recorded] using hw.records
  | record rec =>
    obtain ⟨t, ht, rfl⟩ := map_eq_some_iff.mp hr
    cases t with
    | none => exact leads_fail _
    | some t =>
      refine ⟨quiet_insertRecord ht, ⟨?_, hl.policy, hl.usage⟩, rfl⟩
      rw [htake]
      refine ⟨?_, ?_, ?_⟩
      · simpa [charged] using hw.usage
      · simpa [inserted] using hw.created
      · simpa [recorded] using hw.records.insert ht

end Leads

/-! ## The commit of a creator -/

/-- The call has executed all its statements. -/
structure Ready (db : Db) (i : Nat) (q : Request) (policy : PolicyRow)
    (usage : UsageRow) : Prop where
  written : Written db i [q.charge policy usage usage] (inserted q.statements) q.record.toList
  locks : Locks db q policy usage

section Ready

variable {db : Db} {i j : Nat} {q : Request} {policy : PolicyRow}
  {usage : UsageRow}

theorem ready_of_write {pc : Nat} (h : TaskInv db i (.write q policy usage pc))
    (hnext : q.statements[pc]? = none) : Ready db i q policy usage := by
  obtain ⟨hw, hl⟩ := h
  rw [take_of_length_le (getElem?_eq_none_iff.mp hnext),
    recorded_statements, charged, if_pos (charge_mem_statements q)] at hw
  exact ⟨hw, hl⟩

section

variable (h : Ready db i q policy usage)
include h

theorem Ready.kept (hj : j ≠ i) : Kept db (db.commit i) j where
  policies := rfl
  usage := kept_commit hj
  created := kept_commit hj
  records := kept_commit hj
  rows := fun _ _ hrow => h.written.created.commit_old hrow
  found := fun _ _ hr => h.written.records.commit_old hr

theorem Ready.stored : Stored (db.commit i) q where
  rows := fun _ hrow => h.written.created.commit_new hrow
  record := fun _ hr => h.written.records.commit_new (mem_toList.mpr hr)

/-- Nobody has created under the key before. -/
theorem Ready.fresh {r : Record} (hr : q.record = some r) : db.records.rows.find? r.key = none :=
  h.written.records.fresh r (mem_toList.mpr hr)

/-- The counters of the organization are charged, the others stay. -/
theorem Ready.find?_usage (o : String) : (db.commit i).usage.rows.find? o
      = if q.organizationId = o then some (q.charge policy usage usage)
        else db.usage.rows.find? o := by
  show (db.usage.commit i).rows.find? o = _
  rw [find?_commit]
  have hkey : (q.charge policy usage usage).organizationId = q.organizationId := by
    rw [Request.charge_key, h.locks.key]
  split
  · next ho =>
    rw [← ho, ← hkey]
    exact h.written.usage.read (mem_singleton_self _)
  next ho =>
  refine h.written.usage.read_other fun u hu hk => ho ?_
  obtain rfl := mem_singleton.mp hu
  exact hkey.symm.trans hk

end

end Ready

/-- A step of a call: it creates nothing, or it commits what it has written. -/
def Moves (db : Db) (i : Nat) (t : Tx) (r : Db × Tx) : Prop :=
  Leads db i r ∨ ∃ policy usage reported, Ready db i t.request policy usage
      ∧ r = (db.commit i, .created t.request reported)

variable {db : Db} {i : Nat} {t : Tx} {r : Db × Tx}

theorem moves_taskStep {reply : Reply} (h : TaskInv db i t) (hr : taskStep db i t reply = some r) :
    t.creator = none ∧ Moves db i t r := by
  cases t with
  | look q => exact ⟨rfl, .inl (some.inj hr ▸ leads_look h)⟩
  | lookHash q found =>
    exact ⟨rfl, .inl (some.inj hr ▸ leads_lookHash h)⟩
  | lockPolicy q =>
    exact ⟨rfl, .inl (some.inj hr ▸ leads_lockPolicy h)⟩
  | lockUsage q policy => exact ⟨rfl, .inl (leads_lockUsage h hr)⟩
  | lookAgain q policy usage =>
    exact ⟨rfl, .inl (some.inj hr ▸ leads_lookAgain h)⟩
  | enforce q policy usage =>
    exact ⟨rfl, .inl (some.inj hr ▸ leads_enforce h)⟩
  | write q policy usage pc =>
    refine ⟨rfl, ?_⟩
    rw [taskStep] at hr
    split at hr
    · next hnext =>
      exact .inr ⟨policy, usage, true, ready_of_write h hnext, (some.inj hr).symm⟩
    · next statement hnext => exact .inl (leads_execute h hnext hr)
  | finish q found =>
    refine ⟨rfl, .inl (some.inj hr ▸ leads_finish h ?_)⟩
    exact fun f hf => (Except.ok.inj hf).symm
  | created q reported | ended q answer => cases hr

theorem moves_lose (hr : lose db i t = some r) : t.creator = none ∧ Moves db i t r := by
  cases t with
  | created q reported | ended q answer => cases hr
  | _ => exact ⟨rfl, .inl (some.inj hr ▸ leads_fail _)⟩

theorem moves_loseAnswer (h : TaskInv db i t) (hr : loseAnswer db i t = some r) :
    t.creator = none ∧ Moves db i t r := by
  cases t with
  | write q policy usage pc =>
    refine ⟨rfl, ?_⟩
    rw [loseAnswer] at hr
    split at hr
    · next hnext =>
      exact .inr ⟨policy, usage, false, ready_of_write h hnext, (some.inj hr).symm⟩
    · cases hr
  | finish q found =>
    exact ⟨rfl, .inl (some.inj hr ▸ leads_finish h nofun)⟩
  | _ => cases hr

/-! ## Any number of calls -/

/-- The key a call has created under. -/
def Tx.name (t : Tx) : Option RecordKey := t.creator.bind Request.key

/-- The request a call has created in the organization. -/
def Tx.creatorIn (o : String) (t : Tx) : Option Request :=
  t.creator.filter fun q => decide (q.organizationId = o)

/-- The counters after one more request; `policies` are those it reads. -/
def chargeOnce (policies : Table String PolicyRow PolicyRow.organizationId)
    (u : UsageRow) (q : Request) : UsageRow :=
  match policies.find? q.organizationId with
  | none => u
  | some policy => q.charge policy u u

/-- The counters are those before, charged once for each creator. -/
def Counted (db₀ : Db) (p : Pool Db Tx) : Prop :=
  ∀ o u, db₀.usage.rows.find? o = some u →
    ∃ order : List Request, order.Perm (p.tasks.filterMap (Tx.creatorIn o))
      ∧ p.shared.usage.rows.find? o = some (order.foldl (chargeOnce db₀.policies) u)

/-- What holds of all calls together, when they began with `db₀`. -/
structure Inv (db₀ : Db) (p : Pool Db Tx) : Prop where
  tasks : ∀ i t, p.tasks[i]? = some t → TaskInv p.shared i t
  unborn : ∀ i, p.tasks.length ≤ i → Written p.shared i [] [] []
  policies : p.shared.policies = db₀.policies
  apart : Apart Tx.name p.tasks
  counted : Counted db₀ p
  rows : ∀ k row, p.shared.created.rows.find? k = some row → db₀.created.rows.find? k = some row
      ∨ ∃ t ∈ p.tasks, ∃ q, t.creator = some q ∧ row ∈ inserted q.statements

theorem inv_start {db₀ : Db} (h : Start db₀) : Inv db₀ ⟨db₀, []⟩ where
  tasks := fun _ _ ht => nomatch ht
  unborn := fun _ _ => ⟨owns_of_clean h.usage,
    (owns_of_clean h.created).adds, (owns_of_clean h.records).adds⟩
  policies := rfl
  apart := apart_nil _
  counted := fun _ _ hu => ⟨[], .nil, hu⟩
  rows := fun _ _ hrow => .inl hrow

section Inv

variable {db₀ : Db} {p : Pool Db Tx} {i : Nat}

theorem Inv.spawn (h : Inv db₀ p) (q : Request) : Inv db₀ (p.spawn (.look q)) where
  tasks := forall_numbered_spawn h.tasks (h.unborn _ (Nat.le_refl _))
  unborn := by
    intro j hj
    refine h.unborn j (Nat.le_trans ?_ hj)
    rw [Pool.spawn, length_append]
    exact Nat.le_add_right ..
  policies := h.policies
  apart := h.apart.spawn fun _ _ _ hx => nomatch hx
  counted := by
    intro o u hu
    obtain ⟨order, hperm, hrow⟩ := h.counted o u hu
    refine ⟨order, ?_, hrow⟩
    rw [Pool.spawn, filterMap_append]
    exact hperm.trans (List.Perm.of_eq (append_nil _).symm)
  rows := by
    intro k row hrow
    refine (h.rows k row hrow).imp_right ?_
    rintro ⟨t, ht, hq⟩
    exact ⟨t, mem_append_left _ ht, hq⟩

variable {t : Tx}

variable {r : Db × Tx} {q : Request} {policy : PolicyRow} {usage : UsageRow}
  {reported : Bool} {p' : Pool Db Tx}

/-- What the step of one call leaves of the others. -/
theorem tasks_of_kept (htasks : ∀ j t, p.tasks[j]? = some t → TaskInv p.shared j t)
    (hkept : ∀ j, j ≠ i → Kept p.shared r.1 j) (hinv : TaskInv r.1 i r.2) :
    ∀ j t, (p.tasks.set i r.2)[j]? = some t → TaskInv r.1 j t :=
  forall_numbered_set htasks (fun j _ hj => (hkept j hj).taskInv) hinv

theorem unborn_of_kept (hunborn : ∀ j, p.tasks.length ≤ j → Written p.shared j [] [] [])
    (ht : p.tasks[i]? = some t) (hkept : ∀ j, j ≠ i → Kept p.shared r.1 j) :
    ∀ j, (p.tasks.set i r.2).length ≤ j → Written r.1 j [] [] [] := by
  intro j hj
  rw [length_set] at hj
  obtain ⟨hlt, -⟩ := List.getElem?_eq_some_iff.mp ht
  have hne : j ≠ i := by omega
  exact (hkept j hne).written (hunborn j hj)

section

variable (h : Inv db₀ p)
include h

/-- A step that creates nothing. -/
theorem Inv.lead (ht : p.tasks[i]? = some t) (hidle : t.creator = none) (hr : Leads p.shared i r) :
    Inv db₀ ⟨r.1, p.tasks.set i r.2⟩ where
  tasks := tasks_of_kept h.tasks (fun _ hj => hr.quiet.kept hj) hr.inv
  unborn := unborn_of_kept h.unborn ht fun _ hj => hr.quiet.kept hj
  policies := hr.quiet.policies.trans h.policies
  apart := by
    refine h.apart.set ht fun x hx => ?_
    rw [Tx.name, hr.idle] at hx
    cases hx
  counted := by
    intro o u hu
    obtain ⟨order, hperm, hrow⟩ := h.counted o u hu
    refine ⟨order, ?_, (hr.quiet.usage o).trans hrow⟩
    rw [filterMap_set_of_eq ht]
    · exact hperm
    · rw [Tx.creatorIn, Tx.creatorIn, hr.idle, hidle]
  rows := by
    intro k row hrow
    rw [hr.quiet.created] at hrow
    refine (h.rows k row hrow).imp_right ?_
    rintro hex
    refine exists_tasks_set ht hex ?_
    rintro ⟨q, hq, -⟩
    rw [hidle] at hq
    cases hq

theorem counted_create (ht : p.tasks[i]? = some t)
    (hidle : t.creator = none) (hready : Ready p.shared i q policy usage) :
    Counted db₀ ⟨p.shared.commit i, p.tasks.set i (.created q reported)⟩ := by
  intro o u hu
  obtain ⟨order, hperm, hrow⟩ := h.counted o u hu
  by_cases ho : q.organizationId = o
  · refine ⟨order ++ [q], ?_, ?_⟩
    · have hold : t.creatorIn o = none := by rw [Tx.creatorIn, hidle]; rfl
      have hnew : (Tx.created q reported).creatorIn o = some q := by
        rw [Tx.creatorIn, Tx.creator, filter_some, if_pos (decide_eq_true ho)]
      have hbrought := filterMap_set_of_new ht hold hnew
      refine (perm_append_singleton q order).trans ?_
      exact (hperm.cons q).trans hbrought.symm
    · -- the row it has charged is the one the others have left
      have husage := hready.locks.usage
      rw [ho, hrow] at husage
      have hpolicy := hready.locks.policy
      rw [h.policies] at hpolicy
      rw [foldl_append, some.inj husage]
      rw [hready.find?_usage, if_pos ho, foldl_cons, foldl_nil, chargeOnce, hpolicy]
  · refine ⟨order, ?_, ?_⟩
    · have hnew : (Tx.created q reported).creatorIn o = t.creatorIn o := by
        rw [Tx.creatorIn, Tx.creatorIn, hidle, Tx.creator, filter_some, decide_eq_false ho]
        rfl
      rw [filterMap_set_of_eq ht hnew]
      exact hperm
    · rw [hready.find?_usage, if_neg ho]
      exact hrow

/-- A creator under a key that has no record yet. -/
theorem apart_create (hready : Ready p.shared i q policy usage) :
    Apart Tx.name (p.tasks.set i (.created q reported)) := by
  refine h.apart.take ?_
  intro u hu k hk hname
  obtain ⟨insert, hinsert, rfl⟩ := map_eq_some_iff.mp hk
  have hfresh := hready.fresh (r := insert.record q.kind q.id)
    (by rw [Request.record, hinsert]; rfl)
  obtain ⟨q', hq', hkey⟩ := bind_eq_some_iff.mp hname
  obtain ⟨insert', hinsert', hsame⟩ := map_eq_some_iff.mp hkey
  -- the other creator's record stands under the same key
  obtain ⟨j, hj⟩ := mem_iff_getElem?.mp hu
  have hstored : Stored p.shared q' := by
    have hinv := h.tasks j u hj
    cases u with
    | created q'' reported' =>
      obtain rfl : q'' = q' := some.inj hq'
      exact hinv.2
    | _ => cases hq'
  have hrow := hstored.record (insert'.record q'.kind q'.id) (by rw [Request.record, hinsert']; rfl)
  rw [IdempotencyInsert.record_key] at hrow hfresh
  rw [hsame, hfresh] at hrow
  cases hrow

/-- The commit of a creator. -/
theorem Inv.create (ht : p.tasks[i]? = some t)
    (hidle : t.creator = none) (hready : Ready p.shared i q policy usage) :
    Inv db₀ ⟨p.shared.commit i, p.tasks.set i (.created q reported)⟩ where
  tasks := tasks_of_kept (r := (p.shared.commit i, .created q reported))
    h.tasks (fun _ hj => hready.kept hj) ⟨written_commit, hready.stored⟩
  unborn := unborn_of_kept (r := (p.shared.commit i, .created q reported))
    h.unborn ht fun _ hj => hready.kept hj
  policies := h.policies
  apart := apart_create h hready
  counted := counted_create h ht hidle hready
  rows := by
    intro k row hrow
    obtain ⟨hlt, -⟩ := List.getElem?_eq_some_iff.mp ht
    rcases hready.written.created.of_commit hrow with hold | hnew
    · refine (h.rows k row hold).imp_right fun hex => ?_
      refine exists_tasks_set ht hex ?_
      rintro ⟨q, hq, -⟩
      rw [hidle] at hq
      cases hq
    · exact .inr ⟨_, mem_set hlt _, q, rfl, hnew⟩

theorem Inv.advanced {E : Type} {f : Db → Tx → E → Option (Db × Tx)} {e : E}
    (hf : ∀ {t r}, TaskInv p.shared i t → f p.shared t e = some r →
      t.creator = none ∧ Moves p.shared i t r)
    (hstep : p.advance f i e = some p') : ∃ i t r, p.tasks[i]? = some t ∧ t.creator = none
        ∧ Moves p.shared i t r ∧ p' = ⟨r.1, p.tasks.set i r.2⟩ := by
  obtain ⟨t, db, t', ht, hr, rfl⟩ := Pool.advance_eq_some hstep
  obtain ⟨hidle, hmoves⟩ := hf (h.tasks i t ht) hr
  exact ⟨i, t, (db, t'), ht, hidle, hmoves, rfl⟩

/-- A call begins, or one of them moves. -/
theorem step_moves {a : Act} (hstep : step p a = some p') :
    (∃ q, a = .begin q ∧ p' = p.spawn (.look q)) ∨ ∃ i t r, p.tasks[i]? = some t ∧ t.creator = none
        ∧ Moves p.shared i t r ∧ p' = ⟨r.1, p.tasks.set i r.2⟩ := by
  cases a with
  | begin q => exact .inl ⟨q, rfl, (some.inj hstep).symm⟩
  | next i reply => exact .inr (h.advanced (f := fun db => taskStep db i) moves_taskStep hstep)
  | lose i =>
    exact .inr (h.advanced (f := fun db t _ => lose db i t) (e := ()) (fun _ => moves_lose) hstep)
  | loseAnswer i =>
    exact .inr (h.advanced (f := fun db t _ => loseAnswer db i t) (e := ()) moves_loseAnswer hstep)

end

/-- **EVERY STEP OF EVERY CALL** keeps the invariant. -/
theorem inv_step (p : Pool Db Tx) (a : Act) (p' : Pool Db Tx)
    (h : Inv db₀ p) (hstep : step p a = some p') : Inv db₀ p' := by
  rcases step_moves h hstep with
    ⟨q, -, rfl⟩ | ⟨i, t, r, ht, hidle, hleads | hcreates, rfl⟩
  · exact h.spawn q
  · exact h.lead ht hidle hleads
  · obtain ⟨policy, usage, reported, hready, rfl⟩ := hcreates
    exact h.create ht hidle hready

/-- Records are only ever added. -/
theorem found_step {a : Act} {k : RecordKey} {r : Record} (h : Inv db₀ p)
    (hstep : step p a = some p')
    (hr : p.shared.records.rows.find? k = some r) :
    p'.shared.records.rows.find? k = some r := by
  rcases step_moves h hstep with
    ⟨q, -, rfl⟩ | ⟨i, t, _, _, _, hleads | hcreates, rfl⟩
  · exact hr
  · exact (hleads.quiet.records k).trans hr
  · obtain ⟨policy, usage, reported, hready, rfl⟩ := hcreates
    exact hready.written.records.commit_old hr

theorem found_later {k : RecordKey} {r : Record} (h : Inv db₀ p) (hlater : Reachable step p p')
    (hr : p.shared.records.rows.find? k = some r) :
    Inv db₀ p' ∧ p'.shared.records.rows.find? k = some r := by
  refine inv_reachable (I := fun p => Inv db₀ p
    ∧ p.shared.records.rows.find? k = some r) ?_ ⟨h, hr⟩ hlater
  intro s a t hs hstep
  exact ⟨inv_step s a t hs.1 hstep, found_step hs.1 hstep hs.2⟩

end Inv

/-! ## At most one is created -/

/-- The id a call that has succeeded has answered. -/
def Tx.succeeded : Tx → Option String
  | .created q true => some q.id
  | .ended _ (.ok found) => some found
  | _ => none

def Request.requestHash (q : Request) : Option String :=
  q.idempotency.map IdempotencyInsert.requestHash

/-- The calls under the key: one of them creates, the others answer what it
    has created, and the counters are charged for it alone. -/
structure AdmittedOnce (db₀ : Db) (k : RecordKey) (p : Pool Db Tx) :
    Prop where
  one : ∀ (i j : Nat) q q' b b', p.tasks[i]? = some (Tx.created q b) →
    p.tasks[j]? = some (Tx.created q' b') → q.key = some k →
    q'.key = some k → i = j
  returns : ∀ q b, Tx.created q b ∈ p.tasks → q.key = some k →
    ∀ t ∈ p.tasks, t.request.key = some k → ∀ found, t.succeeded = some found →
      found = q.id ∧ t.request.requestHash = q.requestHash
  refuses : ∀ r, p.shared.records.rows.find? k = some r →
    ∀ p', Reachable step p p' → ∀ t ∈ p'.tasks, t.request.key = some k →
      ∀ found, t.succeeded = some found →
      found = r.row.target ∧ t.request.requestHash = some r.row.requestHash
  stored : ∀ q b, Tx.created q b ∈ p.tasks → Stored p.shared q
  rows : ∀ nk row, p.shared.created.rows.find? nk = some row → db₀.created.rows.find? nk = some row
      ∨ ∃ q b, Tx.created q b ∈ p.tasks ∧ row ∈ inserted q.statements
  counters : Counted db₀ p

section Once

variable {db₀ : Db} {p : Pool Db Tx} {k : RecordKey}

theorem Request.key_eq_some {q : Request} (h : q.key = some k) :
    ∃ insert, q.idempotency = some insert ∧ insert.key q.kind = k
      ∧ q.requestHash = some insert.requestHash
      ∧ q.record = some (insert.record q.kind q.id) := by
  obtain ⟨insert, hinsert, hkey⟩ := map_eq_some_iff.mp h
  refine ⟨insert, hinsert, hkey, ?_, ?_⟩
  · rw [Request.requestHash, hinsert]
    rfl
  · rw [Request.record, hinsert]
    rfl

/-- A success is the answer of the committed record. -/
theorem Inv.succeeded (h : Inv db₀ p) {t : Tx} (ht : t ∈ p.tasks)
    (hkey : t.request.key = some k) {found : String}
    (hfound : t.succeeded = some found) :
    ∃ r, p.shared.records.rows.find? k = some r ∧ found = r.row.target
      ∧ t.request.requestHash = some r.row.requestHash := by
  obtain ⟨i, hi⟩ := mem_iff_getElem?.mp ht
  have hinv := h.tasks i t hi
  obtain ⟨insert, hinsert, hk, hhash, hrecord⟩ := Request.key_eq_some hkey
  cases t with
  | created q reported =>
    cases reported with
    | false => cases hfound
    | true =>
      cases hfound
      have hrow := hinv.2.record _ hrecord
      rw [IdempotencyInsert.record_key] at hrow
      exact ⟨_, hk ▸ hrow, rfl, hhash⟩
  | ended q answer =>
    cases answer with
    | error e => cases hfound
    | ok id =>
      obtain rfl := some.inj hfound
      obtain ⟨insert', r, hinsert', hr, hhash', htarget⟩ :=
        hinv.2 id rfl
      cases hinsert.symm.trans hinsert'
      exact ⟨r, hk ▸ hr, htarget.symm, hhash' ▸ hhash⟩
  | _ => cases hfound

theorem Inv.stored (h : Inv db₀ p) {q : Request} {b : Bool}
    (hq : Tx.created q b ∈ p.tasks) : Stored p.shared q := by
  obtain ⟨i, hi⟩ := mem_iff_getElem?.mp hq
  exact (h.tasks i _ hi).2

/-- **A KEY CREATES ONCE**: of any number of calls under one key, statement by statement and
    whatever else runs, one creates, whoever else succeeds returns what it has created and asked for
    the same, and the counters are charged once for each creator. -/
theorem admitted_once (hstart : Start db₀) (hp : Reachable step ⟨db₀, []⟩ p) (k : RecordKey) :
    AdmittedOnce db₀ k p := by
  have h := inv_reachable inv_step (inv_start hstart) hp
  constructor
  case one =>
    intro i j q q' b b' hi hj hq hq'
    by_contra hij
    exact h.apart i j _ _ k hij hi hj hq hq'
  case returns =>
    intro q b hq hkey t ht htkey found hfound
    obtain ⟨r, hr, htarget, hhash⟩ := h.succeeded ht htkey hfound
    obtain ⟨insert, -, hk, hqhash, hrecord⟩ := Request.key_eq_some hkey
    have hrow := (h.stored hq).record _ hrecord
    rw [IdempotencyInsert.record_key, hk, hr] at hrow
    cases hrow
    exact ⟨htarget, hhash.trans hqhash.symm⟩
  case refuses =>
    intro r hr p' hlater t ht htkey found hfound
    obtain ⟨h', hr'⟩ := found_later h hlater hr
    obtain ⟨r', hfind, htarget, hhash⟩ := h'.succeeded ht htkey hfound
    cases hr'.symm.trans hfind
    exact ⟨htarget, hhash⟩
  case stored => exact fun q b hq => h.stored hq
  case rows =>
    intro nk row hrow
    refine (h.rows nk row hrow).imp_right ?_
    rintro ⟨t, ht, q, hq, hmem⟩
    cases t with
    | created q' b =>
      obtain rfl : q' = q := some.inj hq
      exact ⟨q', b, ht, hmem⟩
    | _ => cases hq
  case counters => exact h.counted

end Once

/-- Two identical submissions: the second begins before the first commits. -/
def sampleRetry (id : String) : Request :=
  .job ⟨"org", id, "flow", "1", .object [], [], "w", "org", "s", 1, 0⟩
    (some ⟨"org", "browser_session", "user", "/api/v1/jobs", "key", "hash"⟩)

/-- The tables before them. -/
def sampleDb : Db where
  policies := Table.empty.put ⟨"org", 2, 100, 3600, 10, 1000⟩
  usage := .committed (Table.empty.put ⟨"org", 0, 0, 0, 0⟩)
  created := .committed Table.empty
  records := .committed Table.empty

theorem sampleDb_start : Start sampleDb where
  usage := rfl
  created := rfl
  records := rfl

/-- Both look before either has a record; the second then waits for the usage
    row until the first has committed. -/
def sampleRace : List Act :=
  [.begin (sampleRetry "j1"), .begin (sampleRetry "j2")]
    ++ ([0, 1, 0, 1, 0, 0, 0, 0, 0, 0, 0, 0, 1, 1, 1].map fun i =>
      .next i ⟨.ok (), .ok ()⟩)

theorem sampleRace_once : ∃ p, run step ⟨sampleDb, []⟩ sampleRace = some p
      ∧ p.tasks.map Tx.succeeded = [some "j1", some "j1"]
      ∧ AdmittedOnce sampleDb (.job, "org", "browser_session", "user", "/api/v1/jobs", "key") p :=
  ⟨_, rfl, rfl, admitted_once sampleDb_start ⟨sampleRace, rfl⟩ _⟩

end Retries
