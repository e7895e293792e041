import NagisaLake.JournalProofs

/-! # Two journals — the SQLite table and the map in memory

`SqliteJournal` and `MemoryJournal` implement one interface.  The first
keeps the columns of `worker_jobs` as text and integers, decodes what a
request needs and writes single columns inside a transaction; the second
keeps whole records in a map and changes them in place, with nothing that
would take a change back.

Between the two stands the journal of records, `Journal.call`, which the
runner's results are about.

* `sqlite_simulates`: the table, read row by row, is that journal, for
  every sequence a `u64` can hold.
* `memory_simulates`: so is the map, for sequences a `BIGINT` can hold.
* `backends_equivalent`: hence no sequence of operations tells the two
  apart, and an operation that fails leaves either of them as it was. -/

namespace Backends

open Jobs KeyedTable Transactions List Journal
open Option hiding sequence
open Table hiding upsert

/-! ## The interface -/

/-- The operations of a journal. -/
inductive Operation where
  | write (request : Request)
  | getJob (jobId : String)
  | listUnfinished
  deriving DecidableEq, Repr

/-- What an operation answers when it succeeds. -/
inductive Response where
  | record (record : JobRecord)
  | job (record : Option JobRecord)
  | done
  | records (records : List JobRecord)
  deriving DecidableEq, Repr

/-- The sequence an operation carries fits a `BIGINT`. -/
def Operation.Fits : Operation → Prop
  | .write (.setPendingEvent event _) => event.sequence ≤ i64Max
  | .write (.clearPendingEvent _ sequence) => sequence ≤ i64Max
  | _ => True

/-- `UpsertDispatch` answers with the record, the other writes with `()`. -/
def written (request : Request) (record : Option JobRecord) : Response :=
  match request, record with
  | .upsertDispatch _, some record => .record record
  | _, _ => .done

/-- The journal of records as a service. -/
def call (j : WorkerJobs) : Operation → Except JournalError Response × WorkerJobs
  | .write request =>
    ((Journal.written j request).map (written request), Journal.call j request)
  | .getJob jobId => (.ok (.job (j.find? jobId)), j)
  | .listUnfinished => (.ok (.records (Journal.listUnfinished j)), j)

/-! ## The map in memory -/

namespace Memory

/-- `BTreeMap<String, JobRecord>`. -/
abbrev Records := Table String JobRecord recordKey

/-- `UpsertDispatch`. -/
def upsertDispatch (m : Records) (dispatch : DispatchJob) :
    Except JournalError Response × Records :=
  match m.find? dispatch.jobId with
  | some record =>
    if sameDispatchIdentity record.dispatch dispatch then
      if record.state.isTerminal then (.ok (.record record), m)
      else
        let record := { record with dispatch := dispatch }
        (.ok (.record record), m.put record)
    else (.error (.dispatchConflict dispatch.jobId), m)
  | none =>
    let record := JobRecord.received dispatch
    (.ok (.record record), m.put record)

/-- `SetJobState`. -/
def setJobState (m : Records) (jobId : String) (state : JobState) :
    Except JournalError Response × Records :=
  match m.find? jobId with
  | none => (.error (.notFound jobId), m)
  | some record =>
    if record.state.canTransitionTo state then
      (.ok .done, m.put { record with state := state })
    else (.error (.invalidTransition record.state state), m)

/-- `SetPromptId`. -/
def setPromptId (m : Records) (jobId promptId : String) : Except JournalError Response × Records :=
  match m.find? jobId with
  | none => (.error (.notFound jobId), m)
  | some record =>
    (.ok .done, m.put { record with promptId := some promptId })

/-- The last two assignments of `SetPendingEvent`. -/
def keepEvent (m : Records) (record : JobRecord) (event : JobEvent) :
    Except JournalError Response × Records :=
  (.ok .done, m.put { record with
    eventSequence := event.sequence
    pendingEvent := some event })

/-- `SetPendingEvent`: the record is changed field by field, so both checks have to come first. -/
def setPendingEvent (m : Records) (event : JobEvent)
    (state : Option JobState) : Except JournalError Response × Records :=
  match m.find? event.jobId with
  | none => (.error (.notFound event.jobId), m)
  | some record =>
    match validateEventSequence record.eventSequence record.pendingEvent
        event with
    | .error error => (.error error, m)
    | .ok () =>
      match state with
      | none => keepEvent m record event
      | some next =>
        if record.state.canTransitionTo next then
          keepEvent m { record with state := next } event
        else (.error (.invalidTransition record.state next), m)

/-- `ClearPendingEvent`. -/
def clearPendingEvent (m : Records) (jobId : String) (sequence : Nat) :
    Except JournalError Response × Records :=
  match m.find? jobId with
  | none => (.ok .done, m)
  | some record =>
    if record.eventSequence = sequence then
      (.ok .done, m.put { record with pendingEvent := none })
    else (.ok .done, m)

/-- `ListUnfinished`: the values in the order of their keys. -/
def listUnfinished (m : Records) : List JobRecord :=
  (m.rows.mergeSort fun r s => decide (recordKey r ≤ recordKey s)).filter
    fun r => !r.state.isTerminal || r.pendingEvent.isSome

/-- `MemoryJournal::call`. -/
def call (m : Records) : Operation → Except JournalError Response × Records
  | .write (.upsertDispatch dispatch) => upsertDispatch m dispatch
  | .write (.setJobState jobId state) => setJobState m jobId state
  | .write (.setPromptId jobId promptId) => setPromptId m jobId promptId
  | .write (.setPendingEvent event state) => setPendingEvent m event state
  | .write (.clearPendingEvent jobId sequence) =>
    clearPendingEvent m jobId sequence
  | .getJob jobId => (.ok (.job (m.find? jobId)), m)
  | .listUnfinished => (.ok (.records (listUnfinished m)), m)

end Memory

/-! ## The SQLite table -/

/-- `state_str`. -/
def stateStr : JobState → String
  | .queued => "queued"
  | .received => "received"
  | .accepted => "accepted"
  | .running => "running"
  | .uploading => "uploading"
  | .completed => "completed"
  | .failed => "failed"
  | .cancelled => "cancelled"

/-- `JournalError` with the kinds only a decoding or a database has. -/
inductive SqliteError where
  | journal (error : JournalError)
  | serialization
  | invalidState (value : String)
  | database
  deriving DecidableEq, Repr

/-- `parse_state`. -/
def parseState (value : String) : Except SqliteError JobState :=
  match value with
  | "queued" => .ok .queued
  | "received" => .ok .received
  | "accepted" => .ok .accepted
  | "running" => .ok .running
  | "uploading" => .ok .uploading
  | "completed" => .ok .completed
  | "failed" => .ok .failed
  | "cancelled" => .ok .cancelled
  | other => .error (.invalidState other)

/-- `serde_json` on the two payloads the table stores; what it writes it reads back. -/
structure Serde (Text : Type) where
  dispatchText : DispatchJob → Text
  dispatchOf : Text → Option DispatchJob
  eventText : JobEvent → Text
  eventOf : Text → Option JobEvent
  dispatchOf_text : ∀ dispatch, dispatchOf (dispatchText dispatch) = some dispatch
  eventOf_text : ∀ event, eventOf (eventText event) = some event

namespace Sqlite

variable {Text : Type}

/-- One row of `worker_jobs`. -/
structure JobRow (Text : Type) where
  jobId : String
  dispatchJson : Text
  state : String
  promptId : Option String
  eventSequence : Int
  pendingEventJson : Option Text
  updatedAt : Int
  deriving DecidableEq, Repr

/-- The table `worker_jobs`. -/
abbrev Db (Text : Type) := Table String (JobRow Text) JobRow.jobId

section

variable (serde : Serde Text)

/-- `serde_json::from_str` of a pending event. -/
def decodeEvent : Option Text → Except SqliteError (Option JobEvent)
  | none => .ok none
  | some payload =>
    match serde.eventOf payload with
    | some event => .ok (some event)
    | none => .error .serialization

/-- `decode_job`. -/
def decodeJob (row : JobRow Text) : Except SqliteError JobRecord :=
  match serde.dispatchOf row.dispatchJson with
  | none => .error .serialization
  | some dispatch => do
      let state ← parseState row.state
      let pendingEvent ← decodeEvent serde row.pendingEventJson
      return {
        dispatch := dispatch
        state := state
        promptId := row.promptId
        eventSequence := row.eventSequence.toNat
        pendingEvent := pendingEvent }

/-- `EventHead`. -/
structure EventHead where
  state : JobState
  eventSequence : Nat
  pendingEvent : Option JobEvent
  deriving DecidableEq, Repr

/-- `decode_event_head`. -/
def decodeEventHead (row : JobRow Text) : Except SqliteError EventHead := do
  let state ← parseState row.state
  let pendingEvent ← decodeEvent serde row.pendingEventJson
  return ⟨state, row.eventSequence.toNat, pendingEvent⟩

/-- `UPDATE worker_jobs SET … WHERE job_id = ?`. -/
def update (db : Db Text) (jobId : String) (f : JobRow Text → JobRow Text)
    (hf : ∀ r, (f r).jobId = r.jobId) : Db Text :=
  db.update (fun r => r.jobId = jobId) f hf

/-- `ensure_updated`, on the rows the statement met. -/
def ensureUpdated (db : Db Text) (jobId : String) : Except SqliteError Unit :=
  if db.count (fun r => r.jobId = jobId) = 0 then
    .error (.journal (.notFound jobId))
  else .ok ()

/-- `SqliteJournal::upsert`. -/
def upsert (db : Db Text) (now : Int) (dispatch : DispatchJob) :
    Except SqliteError (Db Text × Response) :=
  match db.find? dispatch.jobId with
  | some row => do
      let record ← decodeJob serde row
      if sameDispatchIdentity record.dispatch dispatch then
        if record.state.isTerminal then .ok (db, .record record)
        else
          .ok (update db dispatch.jobId (fun r => { r with
              dispatchJson := serde.dispatchText dispatch
              updatedAt := now }) (fun _ => rfl),
            .record { record with dispatch := dispatch })
      else .error (.journal (.dispatchConflict dispatch.jobId))
  | none =>
    match db.insert {
        jobId := dispatch.jobId
        dispatchJson := serde.dispatchText dispatch
        state := "received"
        promptId := none
        eventSequence := 0
        pendingEventJson := none
        updatedAt := now } with
    | some inserted => .ok (inserted, .record (.received dispatch))
    | none => .error .database

/-- `SqliteJournal::set_state`. -/
def setState (db : Db Text) (now : Int) (jobId : String) (state : JobState) :
    Except SqliteError (Db Text × Response) :=
  match db.find? jobId with
  | none => .error (.journal (.notFound jobId))
  | some row => do
      let current ← parseState row.state
      if current.canTransitionTo state then
        .ok (update db jobId (fun r => { r with
          state := stateStr state
          updatedAt := now }) (fun _ => rfl), .done)
      else .error (.journal (.invalidTransition current state))

/-- `SetPromptId`, a single statement. -/
def setPromptId (db : Db Text) (now : Int) (jobId promptId : String) :
    Except SqliteError (Db Text × Response) := do
  let updated := update db jobId (fun r => { r with
    promptId := some promptId
    updatedAt := now }) (fun _ => rfl)
  ensureUpdated db jobId
  .ok (updated, .done)

/-- `SetPendingEvent`: only the columns the checks need are decoded. -/
def setPendingEvent (db : Db Text) (now : Int) (event : JobEvent)
    (state : Option JobState) : Except SqliteError (Db Text × Response) :=
  match db.find? event.jobId with
  | none => .error (.journal (.notFound event.jobId))
  | some row => do
      let current ← decodeEventHead serde row
      (validateEventSequence current.eventSequence current.pendingEvent event).mapError .journal
      match state with
      | some next =>
        if current.state.canTransitionTo next then
          ensureUpdated db event.jobId
          .ok (update db event.jobId (fun r => { r with
            state := stateStr next
            eventSequence := clampI64 event.sequence
            pendingEventJson := some (serde.eventText event)
            updatedAt := now }) (fun _ => rfl), .done)
        else .error (.journal (.invalidTransition current.state next))
      | none =>
        ensureUpdated db event.jobId
        .ok (update db event.jobId (fun r => { r with
          eventSequence := clampI64 event.sequence
          pendingEventJson := some (serde.eventText event)
          updatedAt := now }) (fun _ => rfl), .done)

/-- `ClearPendingEvent`. -/
def clearPendingEvent (db : Db Text) (now : Int) (jobId : String) (sequence : Nat) : Db Text :=
  db.update (fun r => r.jobId = jobId ∧ r.eventSequence = clampI64 sequence)
    (fun r => { r with pendingEventJson := none, updatedAt := now })
    (fun _ => rfl)

/-- The condition of `ListUnfinished`. -/
def unfinished (row : JobRow Text) : Bool :=
  row.state ∉ ["completed", "failed", "cancelled"]
    || row.pendingEventJson.isSome

/-- `ListUnfinished`: the rows that were not touched longest come first. -/
def listUnfinished (db : Db Text) : Except SqliteError (List JobRecord) :=
  ((db.rows.filter unfinished).mergeSort fun r s =>
    decide (r.updatedAt ≤ s.updatedAt)).mapM (decodeJob serde)

/-- An operation as one transaction. -/
def perform (db : Db Text) (now : Int) : Operation → Except SqliteError (Db Text × Response)
  | .write (.upsertDispatch dispatch) => upsert serde db now dispatch
  | .write (.setJobState jobId state) => setState db now jobId state
  | .write (.setPromptId jobId promptId) => setPromptId db now jobId promptId
  | .write (.setPendingEvent event state) =>
    setPendingEvent serde db now event state
  | .write (.clearPendingEvent jobId sequence) =>
    .ok (clearPendingEvent db now jobId sequence, .done)
  | .getJob jobId =>
    match db.find? jobId with
    | none => .ok (db, .job none)
    | some row => (decodeJob serde row).map fun r => (db, .job (some r))
  | .listUnfinished =>
    (listUnfinished serde db).map fun rs => (db, .records rs)

/-- `SqliteJournal::call` at the time `now`: an error rolls back. -/
def call (db : Db Text) (now : Int) (operation : Operation) :
    Except SqliteError Response × Db Text :=
  ((perform serde db now operation).map Prod.snd, commit db (perform serde db now operation))

end

/-! ## Rows and the records they stand for -/

variable {serde : Serde Text}

/-- The row holds the record, column by column. -/
structure Encodes (serde : Serde Text) (row : JobRow Text)
    (record : JobRecord) : Prop where
  jobId : row.jobId = recordKey record
  dispatch : row.dispatchJson = serde.dispatchText record.dispatch
  state : row.state = stateStr record.state
  promptId : row.promptId = record.promptId
  eventSequence : row.eventSequence = record.eventSequence
  pendingEvent : row.pendingEventJson = record.pendingEvent.map serde.eventText

theorem parseState_stateStr (state : JobState) : parseState (stateStr state) = .ok state := by
  cases state <;> rfl

theorem decodeEvent_text (event : Option JobEvent) :
    decodeEvent serde (event.map serde.eventText) = .ok event := by
  cases event with
  | none => rfl
  | some event =>
    rw [map_some, decodeEvent, serde.eventOf_text]

variable {row : JobRow Text} {record : JobRecord} {db : Db Text}
  {j : WorkerJobs} {jobId : String}

section

variable (h : Encodes serde row record)
include h

/-- What was encoded is decoded. -/
theorem Encodes.decodeJob : decodeJob serde row = .ok record := by
  rw [Sqlite.decodeJob, h.dispatch, serde.dispatchOf_text]
  simp only [h.state, parseState_stateStr, h.pendingEvent, decodeEvent_text,
    h.promptId, h.eventSequence]
  rfl

theorem Encodes.decodeEventHead : decodeEventHead serde row
      = .ok ⟨record.state, record.eventSequence, record.pendingEvent⟩ := by
  rw [Sqlite.decodeEventHead]
  simp only [h.state, parseState_stateStr, h.pendingEvent, decodeEvent_text, h.eventSequence]
  rfl

theorem Encodes.unfinished : unfinished row
      = (!record.state.isTerminal || record.pendingEvent.isSome) := by
  rw [Sqlite.unfinished, h.state, h.pendingEvent, Option.isSome_map]
  congr 1
  cases record.state <;> rfl

end

/-- The table holds the journal: under every key both have nothing, or the row holds the record. -/
def Agrees (serde : Serde Text) (db : Db Text) (j : WorkerJobs) : Prop :=
  ∀ jobId, Option.Rel (Encodes serde) (db.find? jobId) (j.find? jobId)

section

variable (h : Agrees serde db j)
include h

theorem Agrees.absent (hdb : db.find? jobId = none) : j.find? jobId = none := by
  have hrel := h jobId
  rw [hdb] at hrel
  cases hj : j.find? jobId with
  | none => rfl
  | some record =>
    rw [hj] at hrel
    cases hrel

theorem Agrees.present (hdb : db.find? jobId = some row) :
    ∃ record, j.find? jobId = some record ∧ Encodes serde row record := by
  have hrel := h jobId
  rw [hdb] at hrel
  cases hj : j.find? jobId with rw [hj] at hrel
  | none =>
    cases hrel
  | some record =>
    cases hrel with
    | some henc => exact ⟨record, rfl, henc⟩

/-- A new row for a job that had none. -/
theorem Agrees.insert {db' : Db Text}
    (hins : db.insert row = some db') (henc : Encodes serde row record) :
    Agrees serde db' (j.put record) := by
  intro jobId
  rw [find?_insert hins, find?_put, henc.jobId]
  split
  · exact Option.Rel.some henc
  · exact h jobId

variable {f : JobRow Text → JobRow Text}

/-- A statement that rewrites the one row of a job. -/
theorem Agrees.update {p : JobRow Text → Bool}
    {hf : ∀ r, (f r).jobId = r.jobId} (hdb : db.find? jobId = some row)
    (hp : p row = true) (hother : ∀ r, p r = true → r.jobId = jobId)
    (henc : Encodes serde (f row) record) :
    Agrees serde (db.update p f hf) (j.put record) := by
  have hkey : recordKey record = jobId := by
    rw [← henc.jobId, hf, key_of_find? hdb]
  intro k
  rw [find?_update, find?_put, hkey]
  by_cases hk : jobId = k
  · rw [if_pos hk, ← hk, hdb]
    show Option.Rel _ (some (if p row then f row else row)) _
    rw [if_pos hp]
    exact Option.Rel.some henc
  · rw [if_neg hk]
    have hsame : (db.find? k).map (fun r => if p r then f r else r) = db.find? k := by
      cases hfind : db.find? k with
      | none => rfl
      | some r =>
        have hne : ¬ p r = true := fun hpr =>
          hk ((hother r hpr).symm.trans (key_of_find? hfind))
        rw [map_some, if_neg hne]
    rw [hsame]
    exact h k

/-- A statement whose condition no row meets. -/
theorem Agrees.untouched {p : JobRow Text → Bool}
    {hf : ∀ r, (f r).jobId = r.jobId}
    (hp : ∀ k r, db.find? k = some r → p r = false) :
    Agrees serde (db.update p f hf) j := by
  intro k
  have hk := h k
  rw [find?_update]
  cases hfind : db.find? k with rw [hfind] at hk
  | none =>
    exact hk
  | some r =>
    rw [map_some, hp k r hfind]
    exact hk

/-- The same for the statements whose only condition is the key. -/
theorem Agrees.set (hf : ∀ r, (f r).jobId = r.jobId)
    (hdb : db.find? jobId = some row) (henc : Encodes serde (f row) record) :
    Agrees serde (Sqlite.update db jobId f hf) (j.put record) :=
  h.update hdb (decide_eq_true (key_of_find? hdb)) (fun _ hr => of_decide_eq_true hr) henc

/-- Writing a record again changes nothing. -/
theorem Agrees.put_same (hj : j.find? jobId = some record) : Agrees serde db (j.put record) := by
  intro k
  rw [find?_put_self hj]
  exact h k

end

theorem ensureUpdated_of_find? (h : db.find? jobId = some row) :
    ensureUpdated db jobId = .ok () := by
  rw [ensureUpdated, if_neg]
  intro hzero
  have hnone := countP_eq_zero.mp hzero row (mem_of_find? h)
  exact hnone (decide_eq_true (key_of_find? h))

theorem ensureUpdated_of_none (h : db.find? jobId = none) :
    ensureUpdated db jobId = .error (.journal (.notFound jobId)) := by
  rw [ensureUpdated, if_pos]
  refine countP_eq_zero.mpr fun row hrow => ?_
  rw [decide_eq_true_eq]
  rintro rfl
  cases h.symm.trans (find?_of_mem hrow)

end Sqlite

/-! ## The table simulates the journal of records -/

/-- The same response, a list in any order. -/
inductive SameResponse : Response → Response → Prop where
  | refl (r : Response) : SameResponse r r
  | records {rs ss : List JobRecord} (h : rs.Perm ss) :
      SameResponse (.records rs) (.records ss)

theorem SameResponse.symm {r s : Response} (h : SameResponse r s) : SameResponse s r := by
  cases h with
  | refl => exact .refl _
  | records h => exact .records h.symm

theorem SameResponse.trans {r s t : Response} (hrs : SameResponse r s)
    (hst : SameResponse s t) : SameResponse r t := by
  cases hrs with
  | refl => exact hst
  | records h =>
    cases hst with
    | refl => exact .records h
    | records h' => exact .records (h.trans h')

/-- The same response or the same error. -/
def SameAnswer : Except SqliteError Response → Except JournalError Response → Prop
  | .ok r, .ok s => SameResponse r s
  | .error (.journal e), .error f => e = f
  | _, _ => False

section

open Sqlite

variable {Text : Type} {serde : Serde Text} {db : Db Text} {j : WorkerJobs}

/-- A transaction of the table and a call of the journal that agree before
    agree in the answer and afterwards. -/
def Matches (serde : Serde Text) (db : Db Text) (x : Except SqliteError (Db Text × Response))
    (y : Except JournalError Response × WorkerJobs) : Prop :=
  SameAnswer (x.map Prod.snd) y.1 ∧ Agrees serde (commit db x) y.2

variable {request : Request} {record : JobRecord}

theorem call_of_written (h : Journal.written j request = .ok (some record)) :
    call j (.write request) = (.ok (written request (some record)), j.put record) := by
  rw [call, Journal.call, h]
  rfl

theorem call_of_error {error : JournalError} (h : Journal.written j request = .error error) :
    call j (.write request) = (.error error, j) := by
  rw [call, Journal.call, h]
  rfl

theorem matches_error {error : JournalError} (hdb : Agrees serde db j)
    (h : Journal.written j request = .error error) :
    Matches serde db (.error (.journal error)) (call j (.write request)) := by
  rw [call_of_error h]
  exact ⟨rfl, hdb⟩

variable {jobId : String}

/-- A statement that sets columns of one row, and the record it stands for. -/
theorem matches_set {row : JobRow Text} {f : JobRow Text → JobRow Text}
    {hf : ∀ r, (f r).jobId = r.jobId} (hdb : Agrees serde db j)
    (hfind : db.find? jobId = some row)
    (hw : Journal.written j request = .ok (some record))
    (henc : Encodes serde (f row) record) :
    Matches serde db (.ok (update db jobId f hf, written request (some record)))
      (call j (.write request)) := by
  rw [call_of_written hw]
  exact ⟨.refl _, hdb.set hf hfind henc⟩

theorem lookup_of_none (h : j.find? jobId = none) :
    Journal.lookup j jobId = .error (.notFound jobId) := by
  rw [Journal.lookup, h]

/-! What a request makes of the record it finds. -/

theorem written_new {dispatch : DispatchJob} (hj : j.find? dispatch.jobId = none) :
    Journal.written j (.upsertDispatch dispatch) = .ok (some (.received dispatch)) := by
  rw [Journal.written, hj]

theorem written_upsertDispatch {dispatch : DispatchJob}
    (hj : j.find? dispatch.jobId = some record) :
    Journal.written j (.upsertDispatch dispatch)
      = (Journal.redispatch record dispatch).map some := by
  rw [Journal.written, hj]
  rfl

theorem written_setJobState (hj : j.find? jobId = some record) (state : JobState) :
    Journal.written j (.setJobState jobId state) = (Journal.transition record state).map some := by
  rw [Journal.written, Journal.lookup, hj]
  rfl

theorem written_setPromptId (hj : j.find? jobId = some record) (promptId : String) :
    Journal.written j (.setPromptId jobId promptId)
      = .ok (some (Journal.setPromptId record promptId)) := by
  rw [Journal.written, Journal.lookup, hj]
  rfl

theorem written_setPendingEvent {event : JobEvent} (hj : j.find? event.jobId = some record)
    (state : Option JobState) : Journal.written j (.setPendingEvent event state)
      = (Journal.setPendingEvent record event state).map some := by
  rw [Journal.written, Journal.lookup, hj]
  rfl

section

variable (hdb : Agrees serde db j)
include hdb

theorem matches_upsert (now : Int) (dispatch : DispatchJob) :
    Matches serde db (upsert serde db now dispatch)
      (call j (.write (.upsertDispatch dispatch))) := by
  cases hfind : db.find? dispatch.jobId with
  | none =>
    have hj := hdb.absent hfind
    obtain ⟨inserted, hins⟩ := exists_insert
      (t := db) (r := ⟨dispatch.jobId, serde.dispatchText dispatch,
        "received", none, 0, none, now⟩) hfind
    rw [call_of_written (written_new hj), upsert, hfind]
    simp only [hins]
    exact ⟨.refl _, hdb.insert hins ⟨rfl, rfl, rfl, rfl, rfl, rfl⟩⟩
  | some row =>
    obtain ⟨record, hj, henc⟩ := hdb.present hfind
    have hw := written_upsertDispatch hj
    rw [upsert, hfind]
    simp only [henc.decodeJob]
    change Matches serde db (if _ then _ else _) _
    by_cases hid : sameDispatchIdentity record.dispatch dispatch = true
    · rw [if_pos hid]
      by_cases hterm : record.state.isTerminal = true
      · rw [if_pos hterm]
        rw [Journal.redispatch, if_pos hid, if_pos hterm] at hw
        rw [call_of_written hw]
        exact ⟨.refl _, hdb.put_same hj⟩
      · rw [if_neg hterm]
        rw [Journal.redispatch, if_pos hid, if_neg hterm] at hw
        have hkey : row.jobId = dispatch.jobId := key_of_find? hfind
        refine matches_set hdb hfind hw ?_
        exact ⟨hkey, rfl, henc.state, henc.promptId, henc.eventSequence, henc.pendingEvent⟩
    · rw [if_neg hid]
      rw [Journal.redispatch, if_neg hid] at hw
      exact matches_error hdb hw

theorem matches_setState (now : Int) (jobId : String) (state : JobState) :
    Matches serde db (setState db now jobId state)
      (call j (.write (.setJobState jobId state))) := by
  cases hfind : db.find? jobId with
  | none =>
    rw [setState, hfind]
    refine matches_error hdb ?_
    rw [Journal.written, lookup_of_none (hdb.absent hfind)]
    rfl
  | some row =>
    obtain ⟨record, hj, henc⟩ := hdb.present hfind
    have hw := written_setJobState hj state
    rw [setState, hfind]
    simp only [henc.state, parseState_stateStr]
    change Matches serde db (if _ then _ else _) _
    by_cases hcan : record.state.canTransitionTo state = true
    · rw [Journal.transition, if_pos hcan] at hw
      rw [if_pos hcan]
      refine matches_set hdb hfind hw ?_
      exact ⟨henc.jobId, henc.dispatch, rfl, henc.promptId, henc.eventSequence, henc.pendingEvent⟩
    · rw [Journal.transition, if_neg hcan] at hw
      rw [if_neg hcan]
      exact matches_error hdb hw

theorem matches_setPromptId (now : Int) (jobId promptId : String) :
    Matches serde db (Sqlite.setPromptId db now jobId promptId)
      (call j (.write (.setPromptId jobId promptId))) := by
  rw [Sqlite.setPromptId]
  cases hfind : db.find? jobId with
  | none =>
    rw [ensureUpdated_of_none hfind]
    refine matches_error hdb ?_
    rw [Journal.written, lookup_of_none (hdb.absent hfind)]
    rfl
  | some row =>
    obtain ⟨record, hj, henc⟩ := hdb.present hfind
    rw [ensureUpdated_of_find? hfind]
    refine matches_set hdb hfind (written_setPromptId hj promptId) ?_
    exact ⟨henc.jobId, henc.dispatch, henc.state, rfl, henc.eventSequence, henc.pendingEvent⟩

theorem matches_setPendingEvent (now : Int) (event : JobEvent) (state : Option JobState) :
    Matches serde db (Sqlite.setPendingEvent serde db now event state)
      (call j (.write (.setPendingEvent event state))) := by
  rw [Sqlite.setPendingEvent]
  cases hfind : db.find? event.jobId with
  | none =>
    refine matches_error hdb ?_
    rw [Journal.written, lookup_of_none (hdb.absent hfind)]
    rfl
  | some row =>
    obtain ⟨record, hj, henc⟩ := hdb.present hfind
    have hw := written_setPendingEvent hj state
    simp only [henc.decodeEventHead]
    change Matches serde db (Except.bind (Except.mapError _ _) _) _
    rw [Journal.setPendingEvent] at hw
    cases hvalid : validateEventSequence record.eventSequence record.pendingEvent event with
      rw [hvalid] at hw
    | error error =>
      exact matches_error hdb hw
    | ok u =>
      cases state with
      | none =>
        rw [ensureUpdated_of_find? hfind]
        refine matches_set hdb hfind hw ?_
        exact ⟨henc.jobId, henc.dispatch, henc.state, henc.promptId, rfl, rfl⟩
      | some next =>
        change Matches serde db (if _ then _ else _) _
        change _ = Except.map some ((transition record next).bind _) at hw
        by_cases hcan : record.state.canTransitionTo next = true
        · rw [if_pos hcan]
          rw [transition, if_pos hcan] at hw
          rw [ensureUpdated_of_find? hfind]
          refine matches_set hdb hfind hw ?_
          exact ⟨henc.jobId, henc.dispatch, rfl, henc.promptId, rfl, rfl⟩
        · rw [if_neg hcan]
          rw [transition, if_neg hcan] at hw
          exact matches_error hdb hw

theorem matches_clearPendingEvent (now : Int) (jobId : String) (sequence : Nat) :
    Matches serde db (.ok (Sqlite.clearPendingEvent db now jobId sequence, .done))
      (call j (.write (.clearPendingEvent jobId sequence))) := by
  refine ⟨?_, ?_⟩
  · rw [call, Journal.written]
    cases j.find? jobId <;> exact .refl _
  show Agrees serde (Sqlite.clearPendingEvent db now jobId sequence) (Journal.call j _)
  rw [Journal.call, Journal.written, Sqlite.clearPendingEvent]
  cases hfind : db.find? jobId with
  | none =>
    rw [hdb.absent hfind]
    apply hdb.untouched
    intro k r hr
    rw [decide_eq_false_iff_not]
    rintro ⟨rfl, -⟩
    rw [find?_of_mem (mem_of_find? hr)] at hfind
    cases hfind
  | some row =>
    obtain ⟨record, hj, henc⟩ := hdb.present hfind
    rw [hj]
    show Agrees serde _ (j.put (clearPendingEvent record sequence))
    rw [Journal.clearPendingEvent]
    by_cases hseq : record.eventSequence = clampI64 sequence
    · rw [if_pos hseq]
      apply hdb.update hfind
      · exact decide_eq_true ⟨key_of_find? hfind,
          henc.eventSequence.trans (congrArg Int.ofNat hseq)⟩
      · intro r hr
        rw [decide_eq_true_eq] at hr
        exact hr.1
      · exact ⟨henc.jobId, henc.dispatch, henc.state, henc.promptId, henc.eventSequence, rfl⟩
    · rw [if_neg hseq]
      -- a later event has moved the sequence on: no row matches
      refine Agrees.put_same ?_ hj
      apply hdb.untouched
      intro k r hr
      rw [decide_eq_false_iff_not]
      rintro ⟨rfl, hr'⟩
      rw [find?_of_mem (mem_of_find? hr)] at hfind
      cases hfind
      exact hseq (Int.ofNat.inj (henc.eventSequence.symm.trans hr'))

/-- The decoded rows of an agreeing table are the records of the journal. -/
theorem mem_decoded : (∃ row ∈ db.rows, decodeJob serde row = .ok record) ↔ record ∈ j.rows := by
  constructor
  · rintro ⟨row, hrow, hdec⟩
    obtain ⟨r, hj, henc⟩ := hdb.present (find?_of_mem hrow)
    obtain rfl : r = record := Except.ok.inj (henc.decodeJob.symm.trans hdec)
    exact mem_of_find? hj
  · intro hrecord
    have hrel := hdb (recordKey record)
    rw [find?_of_mem hrecord] at hrel
    cases hfind : db.find? (recordKey record) with rw [hfind] at hrel
    | none =>
      cases hrel
    | some row =>
      cases hrel with
      | some henc => exact ⟨row, mem_of_find? hfind, henc.decodeJob⟩

/-- Rows with different keys decode to different records. -/
theorem nodup_decoded : ((db.rows.filter unfinished).filterMap fun row =>
      (decodeJob serde row).toOption).Nodup := by
  have hkeys : db.rows.Pairwise fun r s => r.jobId ≠ s.jobId :=
    pairwise_map.mp db.nodup
  refine pairwise_filterMap.mpr ((hkeys.filter _).imp_of_mem ?_)
  rintro r s hr hs hne a ha _ hb rfl
  obtain ⟨a', -, henc⟩ :=
    hdb.present (find?_of_mem (mem_filter.mp hr).1)
  obtain ⟨b', -, henc'⟩ :=
    hdb.present (find?_of_mem (mem_filter.mp hs).1)
  rw [henc.decodeJob] at ha
  rw [henc'.decodeJob] at hb
  apply hne
  rw [henc.jobId, henc'.jobId, some.inj ha, some.inj hb]

theorem matches_listUnfinished (now : Int) :
    Matches serde db (perform serde db now .listUnfinished) (call j .listUnfinished) := by
  have hpresent : ∀ row ∈ db.rows, ∃ record, Encodes serde row record :=
    fun row hrow =>
      (hdb.present (find?_of_mem hrow)).imp fun _ h => h.2
  have hsorted := mergeSort_perm (db.rows.filter unfinished)
    fun r s => decide (r.updatedAt ≤ s.updatedAt)
  rw [perform, Sqlite.listUnfinished, mapM_eq_ok]
  · refine ⟨?_, hdb⟩
    refine SameResponse.records ((hsorted.filterMap _).trans
      ((perm_ext_iff_of_nodup (nodup_decoded hdb) ?_).mpr fun record => ?_))
    · exact (List.Nodup.of_map _ j.nodup).filter _
    rw [mem_filterMap, Journal.listUnfinished, mem_filter, ← mem_decoded hdb]
    constructor
    · rintro ⟨row, hrow, hdec⟩
      obtain ⟨hrow, hun⟩ := mem_filter.mp hrow
      obtain ⟨r, henc⟩ := hpresent row hrow
      rw [henc.decodeJob] at hdec
      cases hdec
      exact ⟨⟨row, hrow, henc.decodeJob⟩, henc.unfinished ▸ hun⟩
    · rintro ⟨⟨row, hrow, hdec⟩, hun⟩
      obtain ⟨r, henc⟩ := hpresent row hrow
      cases henc.decodeJob.symm.trans hdec
      refine ⟨row, mem_filter.mpr ⟨hrow, henc.unfinished.trans hun⟩, ?_⟩
      rw [hdec]
      rfl
  · intro row hrow
    obtain ⟨record, henc⟩ :=
      hpresent row (mem_filter.mp (hsorted.mem_iff.mp hrow)).1
    exact ⟨record, henc.decodeJob⟩

theorem matches_getJob (now : Int) (jobId : String) :
    Matches serde db (perform serde db now (.getJob jobId)) (call j (.getJob jobId)) := by
  rw [perform, call]
  cases hfind : db.find? jobId with
  | none =>
    rw [hdb.absent hfind]
    exact ⟨.refl _, hdb⟩
  | some row =>
    obtain ⟨record, hj, henc⟩ := hdb.present hfind
    simp only [henc.decodeJob, hj]
    exact ⟨.refl _, hdb⟩

/-- **THE TABLE IS THE JOURNAL**: from an agreeing table every operation, at every time and with
    every sequence, gives the journal's answer and leaves an agreeing table. -/
theorem sqlite_simulates (now : Int) (operation : Operation) :
    SameAnswer (Sqlite.call serde db now operation).1 (call j operation).1
      ∧ Agrees serde (Sqlite.call serde db now operation).2 (call j operation).2 := by
  cases operation with
  | write request =>
    cases request with
    | upsertDispatch dispatch => exact matches_upsert hdb now dispatch
    | setJobState jobId state => exact matches_setState hdb now jobId state
    | setPromptId jobId promptId =>
      exact matches_setPromptId hdb now jobId promptId
    | setPendingEvent event state =>
      exact matches_setPendingEvent hdb now event state
    | clearPendingEvent jobId sequence =>
      exact matches_clearPendingEvent hdb now jobId sequence
  | getJob jobId => exact matches_getJob hdb now jobId
  | listUnfinished => exact matches_listUnfinished hdb now

end

end

/-! ## The map simulates the journal of records -/

/-- The map and the journal hold the same records. -/
def SameRecords (m : Memory.Records) (j : WorkerJobs) : Prop :=
  ∀ jobId, m.find? jobId = j.find? jobId

/-- The answer of the map beside the answer of the journal. -/
def SameReply : Except JournalError Response → Except JournalError Response → Prop
  | .ok r, .ok s => SameResponse r s
  | .error e, .error f => e = f
  | _, _ => False

section

variable {m : Memory.Records} {j : WorkerJobs}

theorem SameRecords.put (h : SameRecords m j) (record : JobRecord) :
    SameRecords (m.put record) (j.put record) := by
  intro k
  rw [find?_put, find?_put, h k]

/-- A call of the map and one of the journal that agree afterwards too. -/
def Follows (x y : Except JournalError Response × Memory.Records) : Prop :=
  SameReply x.1 y.1 ∧ SameRecords x.2 y.2

section

variable (h : SameRecords m j)
include h

variable {request : Request}

theorem follows_error {error : JournalError} (hw : Journal.written j request = .error error) :
    Follows (.error error, m) (call j (.write request)) := by
  rw [call_of_error hw]
  exact ⟨rfl, h⟩

theorem follows_put {record : JobRecord} (hw : Journal.written j request = .ok (some record)) :
    Follows (.ok (written request (some record)), m.put record) (call j (.write request)) := by
  rw [call_of_written hw]
  exact ⟨.refl _, h.put record⟩

/-- The journal writes a record the map already holds. -/
theorem follows_kept {jobId : String} {record : JobRecord} (hj : j.find? jobId = some record)
    (hw : Journal.written j request = .ok (some record)) :
    Follows (.ok (written request (some record)), m) (call j (.write request)) := by
  rw [call_of_written hw]
  exact ⟨.refl _, fun k => (h k).trans (find?_put_self hj k).symm⟩

theorem follows_upsertDispatch (dispatch : DispatchJob) :
    Follows (Memory.upsertDispatch m dispatch) (call j (.write (.upsertDispatch dispatch))) := by
  rw [Memory.upsertDispatch, h]
  cases hj : j.find? dispatch.jobId with
  | none =>
    exact follows_put h (written_new hj)
  | some record =>
    have hw := written_upsertDispatch hj
    rw [Journal.redispatch] at hw
    change Follows (if _ then _ else _) _
    by_cases hid : sameDispatchIdentity record.dispatch dispatch = true
    · rw [if_pos hid] at hw ⊢
      by_cases hterm : record.state.isTerminal = true
      · rw [if_pos hterm] at hw ⊢
        exact follows_kept h hj hw
      · rw [if_neg hterm] at hw ⊢
        exact follows_put h hw
    · rw [if_neg hid] at hw ⊢
      exact follows_error h hw

theorem follows_setJobState (jobId : String) (state : JobState) :
    Follows (Memory.setJobState m jobId state) (call j (.write (.setJobState jobId state))) := by
  rw [Memory.setJobState, h]
  cases hj : j.find? jobId with
  | none =>
    refine follows_error h ?_
    rw [Journal.written, lookup_of_none hj]
    rfl
  | some record =>
    have hw := written_setJobState hj state
    rw [Journal.transition] at hw
    change Follows (if _ then _ else _) _
    by_cases hcan : record.state.canTransitionTo state = true
    · rw [if_pos hcan] at hw ⊢
      exact follows_put h hw
    · rw [if_neg hcan] at hw ⊢
      exact follows_error h hw

theorem follows_setPromptId (jobId promptId : String) :
    Follows (Memory.setPromptId m jobId promptId)
      (call j (.write (.setPromptId jobId promptId))) := by
  rw [Memory.setPromptId, h]
  cases hj : j.find? jobId with
  | none =>
    refine follows_error h ?_
    rw [Journal.written, lookup_of_none hj]
    rfl
  | some record =>
    exact follows_put h (written_setPromptId hj promptId)

end

theorem clampI64_of_le {n : Nat} (h : n ≤ i64Max) : clampI64 n = n :=
  Nat.min_eq_left h

section

variable (h : SameRecords m j)
include h

theorem follows_setPendingEvent {event : JobEvent}
    (hfits : event.sequence ≤ i64Max) (state : Option JobState) :
    Follows (Memory.setPendingEvent m event state)
      (call j (.write (.setPendingEvent event state))) := by
  rw [Memory.setPendingEvent, h]
  cases hj : j.find? event.jobId with
  | none =>
    refine follows_error h ?_
    rw [Journal.written, lookup_of_none hj]
    rfl
  | some record =>
    have hw := written_setPendingEvent hj state
    rw [Journal.setPendingEvent, clampI64_of_le hfits] at hw
    cases hvalid : validateEventSequence record.eventSequence record.pendingEvent event with
      rw [hvalid] at hw
    | error error =>
      simp only [hvalid]
      exact follows_error h hw
    | ok u =>
      simp only [hvalid]
      cases state with
      | none => exact follows_put h hw
      | some next =>
        change _ = Except.map some ((transition record next).bind _) at hw
        rw [transition] at hw
        change Follows (if _ then _ else _) _
        by_cases hcan : record.state.canTransitionTo next = true
        · rw [if_pos hcan] at hw ⊢
          exact follows_put h hw
        · rw [if_neg hcan] at hw ⊢
          exact follows_error h hw

theorem follows_clearPendingEvent (jobId : String)
    {sequence : Nat} (hfits : sequence ≤ i64Max) :
    Follows (Memory.clearPendingEvent m jobId sequence)
      (call j (.write (.clearPendingEvent jobId sequence))) := by
  rw [Memory.clearPendingEvent, h]
  cases hj : j.find? jobId with
  | none =>
    rw [call, Journal.call, Journal.written, hj]
    exact ⟨.refl _, h⟩
  | some record =>
    have hw : Journal.written j (.clearPendingEvent jobId sequence)
        = .ok (some (Journal.clearPendingEvent record sequence)) := by
      rw [Journal.written, hj]
      rfl
    rw [Journal.clearPendingEvent, clampI64_of_le hfits] at hw
    change Follows (if _ then _ else _) _
    by_cases hseq : record.eventSequence = sequence
    · rw [if_pos hseq] at hw ⊢
      exact follows_put h hw
    · rw [if_neg hseq] at hw ⊢
      exact follows_kept h hj hw

theorem follows_listUnfinished :
    Follows (Memory.call m .listUnfinished) (call j .listUnfinished) := by
  exact ⟨.records (((mergeSort_perm ..).trans (perm_of_find? h)).filter _), h⟩

/-- **THE MAP IS THE JOURNAL**: for operations whose sequence fits a `BIGINT`,
    the map gives the journal's answer and holds the journal's records. -/
theorem memory_simulates {operation : Operation} (hfits : operation.Fits) :
    SameReply (Memory.call m operation).1 (call j operation).1
      ∧ SameRecords (Memory.call m operation).2 (call j operation).2 := by
  cases operation with
  | write request =>
    cases request with
    | upsertDispatch dispatch => exact follows_upsertDispatch h dispatch
    | setJobState jobId state => exact follows_setJobState h jobId state
    | setPromptId jobId promptId => exact follows_setPromptId h jobId promptId
    | setPendingEvent event state =>
      exact follows_setPendingEvent h hfits state
    | clearPendingEvent jobId sequence =>
      exact follows_clearPendingEvent h jobId hfits
  | getJob jobId =>
    refine ⟨?_, h⟩
    show SameResponse (.job (m.find? jobId)) (.job (j.find? jobId))
    rw [h]
    exact .refl _
  | listUnfinished => exact follows_listUnfinished h

end

end

/-! ## No sequence of operations tells them apart -/

/-- Answers that agree with the journal's agree. -/
theorem SameAnswer.trans_reply {x : Except SqliteError Response}
    {y z : Except JournalError Response} (hx : SameAnswer x y)
    (hz : SameReply z y) : SameAnswer x z := by
  cases y with
  | error e =>
    cases z with
    | error f => exact (show f = e from hz) ▸ hx
    | ok r => exact hz.elim
  | ok s =>
    cases z with
    | error f => exact hz.elim
    | ok r =>
      cases x with
      | error e => exact (show False by cases e <;> exact hx).elim
      | ok q => exact SameResponse.trans hx (SameResponse.symm hz)

/-- An error leaves the map as it was. -/
def Checked (m : Memory.Records) (x : Except JournalError Response × Memory.Records) : Prop :=
  ∀ error, x.1 = .error error → x.2 = m

/-- The checks of the map come before its first assignment. -/
theorem memory_checked (m : Memory.Records) (operation : Operation) :
    Checked m (Memory.call m operation) := by
  cases operation with
  | write request =>
    cases request
    all_goals
      simp only [Memory.call, Memory.upsertDispatch, Memory.setJobState, Memory.setPromptId,
        Memory.setPendingEvent, Memory.clearPendingEvent]
      repeat' split
    -- a branch fails with the map it has, or does not fail
    all_goals first
      | exact fun _ _ => rfl
      | (intro _ h
         cases h)
  | getJob jobId | listUnfinished => exact fun _ _ => rfl

/-- A failed transaction is rolled back. -/
theorem sqlite_of_error {Text : Type} {serde : Serde Text}
    {db : Sqlite.Db Text} {now : Int} {operation : Operation}
    {error : SqliteError}
    (h : (Sqlite.call serde db now operation).1 = .error error) :
    (Sqlite.call serde db now operation).2 = db := by
  change (Sqlite.perform serde db now operation).map Prod.snd = _ at h
  show commit db (Sqlite.perform serde db now operation) = db
  cases hperform : Sqlite.perform serde db now operation with
  | error e => rfl
  | ok r =>
    rw [hperform] at h
    cases h

/-- An empty table agrees with an empty map. -/
theorem agrees_empty {Text : Type} {serde : Serde Text} :
    Sqlite.Agrees serde Table.empty Table.empty := fun _ => Option.Rel.none

/-- **THE TWO JOURNALS ARE INDISTINGUISHABLE**: whatever operations are called,
    in whatever order and at whatever times, with sequences a `BIGINT` holds,
    SQLite and memory give the same answers from the empty journal on; and an
    operation that fails leaves the journal it was called on unchanged. -/
theorem backends_equivalent {Text : Type} (serde : Serde Text) (operations : List (Operation × Int))
    (hfits : ∀ o ∈ operations, o.1.Fits) :
    List.Forall₂ SameAnswer
        (answers (fun db o => Sqlite.call serde db o.2 o.1) Table.empty operations)
        (answers (fun m o => Memory.call m o.1) Table.empty operations)
      ∧ (∀ db now operation error, (Sqlite.call serde db now operation).1 = .error error →
          (Sqlite.call serde db now operation).2 = db)
      ∧ ∀ m operation error, (Memory.call m operation).1 = .error error →
          (Memory.call m operation).2 = m := by
  refine ⟨?_, fun _ _ _ _ h => sqlite_of_error h, fun m _ error h => memory_checked m _ error h⟩
  refine answers_related (R := fun db m => ∃ j, Sqlite.Agrees serde db j ∧ SameRecords m j) ?_
    operations _ _ hfits ⟨Table.empty, agrees_empty, fun _ => rfl⟩
  rintro db m ⟨operation, now⟩ hfit ⟨j, hdb, hm⟩
  obtain ⟨hanswer, hdb'⟩ := sqlite_simulates hdb now operation
  obtain ⟨hreply, hm'⟩ := memory_simulates hm hfit
  exact ⟨hanswer.trans_reply hreply, _, hdb', hm'⟩

/-- Payloads kept as they are. -/
def plain : Serde (DispatchJob ⊕ JobEvent) where
  dispatchText := .inl
  dispatchOf := Sum.getLeft?
  eventText := .inr
  eventOf := Sum.getRight?
  dispatchOf_text _ := rfl
  eventOf_text _ := rfl

/-- An event of the job. -/
def accepted : JobEvent where
  jobId := "job"
  attempt := 1
  sequence := 1
  kind := .accepted
  progress := none
  promptId := none
  message := ""
  unixMs := 5

/-- A job received, moved on, refused an event of the same sequence and listed. -/
def session : List (Operation × Int) :=
  [(.write (.upsertDispatch plainDispatch), 1),
    (.write (.setPendingEvent accepted (some .accepted)), 2),
    (.write (.setPendingEvent { accepted with unixMs := 6 } none), 3),
    (.write (.clearPendingEvent "job" 1), 4), (.listUnfinished, 5)]

theorem session_equivalent : List.Forall₂ SameAnswer
        (answers (fun db o => Sqlite.call plain db o.2 o.1) Table.empty session)
        (answers (fun m o => Memory.call m o.1) Table.empty session)
      ∧ (answers (fun m o => Memory.call m o.1) Table.empty session).length = 5 := by
  refine ⟨(backends_equivalent plain session ?_).1, rfl⟩
  intro o ho
  simp only [session, mem_cons, not_mem_nil, or_false] at ho
  rcases ho with rfl | rfl | rfl | rfl | rfl
  · exact trivial
  · show accepted.sequence ≤ i64Max
    decide
  · show accepted.sequence ≤ i64Max
    decide
  · show 1 ≤ i64Max
    decide
  · exact trivial

end Backends
