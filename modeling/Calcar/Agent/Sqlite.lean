import Calcar.Agent.Types

/-!
# The statements of the agent's store

The SQL that `calcar-storage` sends, one constructor for each statement that
stands alone and one for the transaction of `append_event`, which happens
whole or not at all.  A statement that fails leaves the file as it was.

The tables are lists of rows; `ORDER BY` sorts what a statement selects.
Ordering text by bytes and ordering it by code points agree, so the order of
`String` is SQLite's.
-/

namespace Calcar.Agent

def maxRingEvents : Int := 5000
def maxRingBytes : Int := 10 * 1024 * 1024

/-- `EventDraft`. -/
structure EventDraft where
  workflowId : String
  eventId : String
  providerSessionId : Option String
  occurredAtMillis : Int
  eventType : EventType
  summary : String
  detailPointer : Option String
  deriving DecidableEq, Repr

/-- The bytes of an optional text. -/
def optLen (s : Option String) : Nat := (s.map String.utf8ByteSize).getD 0

/-- `approx_bytes`: a fixed overhead plus the lengths. -/
def approxBytes (summary : String) (detailPointer : Option String) (eventId : String)
    (providerSessionId : Option String) : Nat :=
  64 + summary.utf8ByteSize + optLen detailPointer + eventId.utf8ByteSize +
    optLen providerSessionId

/-- `OutboxEntry`. -/
structure OutboxEntry where
  workflowId : String
  seqNo : Int
  deriving DecidableEq, Repr

/-- The key of an outbox row. -/
def OutboxRow.entry (r : OutboxRow) : OutboxEntry := ⟨r.workflowId, r.seqNo⟩

/-- An outbox row without its publication mark. -/
def OutboxRow.stamp (r : OutboxRow) : OutboxEntry × Int := (r.entry, r.enqueuedAtMillis)

/-- `RingStats`. -/
structure RingStats where
  count : Nat
  approxBytes : Nat
  oldestSeq : Option Int
  newestSeq : Option Int
  truncatedBeforeSeq : Option Int
  droppedCount : Int
  deriving DecidableEq, Repr

/-- `ORDER BY seq_no ASC`. -/
def orderBySeq (rows : List EventRow) : List EventRow :=
  rows.mergeSort fun a b => a.seqNo ≤ b.seqNo

/-- The bytes a list of rows accounts for. -/
def bytesOf (rows : List EventRow) : Nat := rows.foldr (fun r n => r.approxBytes + n) 0

/-- A pending request past its deadline. -/
def RequestRow.overdue (r : RequestRow) (now : Int) : Bool :=
  r.state = .pending && r.expiresAtMillis.any fun t => t ≤ now

namespace Db

/-! ## The event ring -/

def getWorkflow (db : Db) (w : String) : Option WorkflowRow :=
  db.workflows.find? fun r => r.workflowId = w

/-- The ring of one workflow. -/
def eventsOf (db : Db) (w : String) : List EventRow :=
  db.events.filter fun r => r.workflowId = w

def truncationOf (db : Db) (w : String) : Option TruncationRow :=
  db.truncations.find? fun r => r.workflowId = w

/-- `COALESCE(MAX(seq_no), 0) + 1`. -/
def nextSeq (db : Db) (w : String) : Int :=
  (((db.eventsOf w).map EventRow.seqNo).max?).getD 0 + 1

/-- The walk of `trim_ring` over the older rows. -/
def cutoffWalk : List EventRow → Int → Int → Option Int → Option Int
  | [], _, _, cutoff => cutoff
  | row :: rows, needEvents, needBytes, cutoff =>
      if needEvents ≤ 0 ∧ needBytes ≤ 0 then cutoff
      else cutoffWalk rows (needEvents - 1) (needBytes - row.approxBytes) (some row.seqNo)

/-- `INSERT … ON CONFLICT(workflow_id) DO UPDATE` on `ring_truncations`. -/
def upsertTruncation (db : Db) (w : String) (cutoff deleted now : Int) : Db :=
  if (db.truncationOf w).isSome then
    { db with
      truncations := db.truncations.map fun r =>
        if r.workflowId = w then
          { r with
            truncatedBeforeSeq := max r.truncatedBeforeSeq cutoff
            droppedCount := r.droppedCount + deleted
            atMillis := now }
        else r }
  else { db with truncations := db.truncations ++ [⟨w, cutoff, deleted, now⟩] }

/-- The rows `trim_ring` deletes. -/
def upTo (w : String) (cutoff : Int) (r : EventRow) : Bool :=
  r.workflowId = w ∧ r.seqNo ≤ cutoff

/-- `trim_ring`. -/
def trimRing (db : Db) (w : String) (now : Int) : Except StorageError Db :=
  let rows := db.eventsOf w
  let excessEvents := max ((rows.length : Int) - maxRingEvents) 0
  let excessBytes := max ((bytesOf rows : Int) - maxRingBytes) 0
  if excessEvents = 0 ∧ excessBytes = 0 then .ok db
  else
    match (rows.map EventRow.seqNo).max? with
    | none => .error .sqlite
    | some newest =>
        let older := orderBySeq (rows.filter fun r => r.seqNo < newest)
        match cutoffWalk older excessEvents excessBytes none with
        | none => .ok db
        | some cutoff =>
            let deleted := db.events.countP (upTo w cutoff)
            .ok (upsertTruncation
              { db with events := db.events.filter fun r => ¬upTo w cutoff r } w cutoff
              deleted now)

/-- The row `append_event` inserts. -/
def eventRow (d : EventDraft) (seq : Int) : EventRow where
  workflowId := d.workflowId
  seqNo := seq
  eventId := d.eventId
  providerSessionId := d.providerSessionId
  type := d.eventType.toI32
  occurredAtMillis := d.occurredAtMillis
  summary := d.summary
  detailPointer := d.detailPointer
  approxBytes := approxBytes d.summary d.detailPointer d.eventId d.providerSessionId

/-- The transaction of `append_event`: the next number, the event, its
outbox row, the trim.  The three inserts keep to the keys and references of
the schema. -/
def appendTx (db : Db) (d : EventDraft) (now trimNow : Int) : Except StorageError (Db × Int) :=
  let seq := db.nextSeq d.workflowId
  if (db.getWorkflow d.workflowId).isNone then .error .sqlite
  else if db.events.any fun r => r.workflowId = d.workflowId ∧ r.seqNo = seq then .error .sqlite
  else if db.outbox.any fun r => r.entry = ⟨d.workflowId, seq⟩ then .error .sqlite
  else
    match trimRing
        { db with
          events := db.events ++ [eventRow d seq]
          outbox := db.outbox ++ [⟨d.workflowId, seq, now, none⟩] } d.workflowId trimNow with
    | .error e => .error e
    | .ok db' => .ok (db', seq)

/-- `map_event`. -/
def mapEvent (r : EventRow) : WorkflowEvent where
  eventId := r.eventId
  workflowId := r.workflowId
  providerSessionId := r.providerSessionId
  seqNo := r.seqNo
  occurredAtMillis := r.occurredAtMillis
  eventType := (EventType.fromI32 r.type).getD .unspecified
  summary := r.summary
  detailPointer := r.detailPointer

/-- `events_after`. -/
def eventsAfter (db : Db) (w : String) (afterSeq : Int) (limit : Nat) : List WorkflowEvent :=
  ((orderBySeq ((db.eventsOf w).filter fun r => afterSeq < r.seqNo)).take limit).map mapEvent

/-- `ring_stats`. -/
def ringStats (db : Db) (w : String) : RingStats where
  count := (db.eventsOf w).length
  approxBytes := bytesOf (db.eventsOf w)
  oldestSeq := ((db.eventsOf w).map EventRow.seqNo).min?
  newestSeq := ((db.eventsOf w).map EventRow.seqNo).max?
  truncatedBeforeSeq := (db.truncationOf w).map TruncationRow.truncatedBeforeSeq
  droppedCount := ((db.truncationOf w).map TruncationRow.droppedCount).getD 0

/-! ## The outbox -/

/-- `WHERE published_at_millis IS NULL`. -/
def pendingRows (db : Db) : List OutboxRow :=
  db.outbox.filter fun r => r.publishedAtMillis.isNone

/-- `ORDER BY enqueued_at_millis ASC, workflow_id ASC, seq_no ASC`. -/
def drainLe (a b : OutboxRow) : Bool :=
  a.enqueuedAtMillis < b.enqueuedAtMillis ∨
    (a.enqueuedAtMillis = b.enqueuedAtMillis ∧
      (a.workflowId < b.workflowId ∨ (a.workflowId = b.workflowId ∧ a.seqNo ≤ b.seqNo)))

/-- `outbox_drain`. -/
def outboxDrain (db : Db) (limit : Nat) : List OutboxEntry :=
  ((db.pendingRows.mergeSort drainLe).take limit).map OutboxRow.entry

/-- The row one `UPDATE` of `outbox_mark_published` is about. -/
def unpublished (e : OutboxEntry) (r : OutboxRow) : Bool :=
  r.entry = e ∧ r.publishedAtMillis.isNone

/-- That `UPDATE`, and how many rows it changed. -/
def updatePublished (db : Db) (e : OutboxEntry) (now : Int) : Db × Nat :=
  ({ db with
      outbox := db.outbox.map fun r =>
        if unpublished e r then { r with publishedAtMillis := some now } else r },
    db.outbox.countP (unpublished e))

/-! ## Pending requests -/

def requestOf (db : Db) (id : String) : Option RequestRow :=
  db.requests.find? fun r => r.requestId = id

/-- Change the rows of one request. -/
def modifyRequest (db : Db) (id : String) (f : RequestRow → RequestRow) : Db :=
  { db with requests := db.requests.map fun r => if r.requestId = id then f r else r }

/-- The `INSERT` of `create_pending_request`. -/
def insertRequest (db : Db) (id w : String) (kind : RequestKind) (expiresAt : Option Int)
    (now : Int) : Except StorageError Db :=
  if (db.getWorkflow w).isNone then .error .sqlite
  else if (db.requestOf id).isSome then .error .sqlite
  else
    .ok { db with
      requests := db.requests ++ [{
        requestId := id
        workflowId := w
        kind := kind
        createdAtMillis := now
        expiresAtMillis := expiresAt }] }

/-- The two `UPDATE`s that expire a row and the one that resolves it: how
many rows change.  `request_id` is the primary key, so it is one at most. -/
def updateExpired (db : Db) (id : String) (now : Int) : Db :=
  db.modifyRequest id fun r => if r.overdue now then { r with state := .expired } else r

def updateResolved (db : Db) (id payload : String) (now : Int) : Db × Nat :=
  (db.modifyRequest id fun r =>
      if r.state = .pending then
        { r with state := .resolved, resolvedAtMillis := some now, resolvePayload := some payload }
      else r,
    db.requests.countP fun r => r.requestId = id ∧ r.state = .pending)

/-- `expire_pending_requests`. -/
def updateAllExpired (db : Db) (now : Int) : Db × Nat :=
  ({ db with
      requests := db.requests.map fun r =>
        if r.overdue now then { r with state := .expired } else r },
    db.requests.countP fun r => r.overdue now)

/-! ## Workflows -/

/-- The `INSERT` of `create_workflow`. -/
def insertWorkflow (db : Db) (row : WorkflowRow) : Except StorageError Db :=
  if (db.getWorkflow row.workflowId).isSome then .error .sqlite
  else if row.state = 0 ∨ row.state = 7 then .error .sqlite
  else .ok { db with workflows := db.workflows ++ [row] }

/-- The `UPDATE` of `set_workflow_state`. -/
def updateWorkflowState (db : Db) (w : String) (state now : Int) : Except StorageError Db :=
  if state = 0 ∨ state = 7 then .error .sqlite
  else
    .ok { db with
      workflows := db.workflows.map fun r =>
        if r.workflowId = w then { r with state := state, updatedAtMillis := now } else r }

def bindingOf (db : Db) (w : String) : Option BindingRow :=
  db.bindings.find? fun r => r.workflowId = w

/-- The upsert of `upsert_session_binding`. -/
def upsertBinding (db : Db) (row : BindingRow) : Except StorageError Db :=
  if (db.getWorkflow row.workflowId).isNone then .error .sqlite
  else if (db.bindingOf row.workflowId).isSome then
    .ok { db with
      bindings := db.bindings.map fun r => if r.workflowId = row.workflowId then row else r }
  else .ok { db with bindings := db.bindings ++ [row] }

end Db

/-! ## Statements -/

/-- The statements of the store. -/
inductive Sql where
  | selectWorkflow (w : String)
  | insertWorkflow (row : WorkflowRow)
  | updateWorkflowState (w : String) (state now : Int)
  | upsertBinding (row : BindingRow)
  | selectBinding (w : String)
  | appendEvent (d : EventDraft) (now trimNow : Int)
  | selectEventsAfter (w : String) (afterSeq : Int) (limit : Nat)
  | selectRingStats (w : String)
  | selectOutbox (limit : Nat)
  | updatePublished (e : OutboxEntry) (now : Int)
  | insertRequest (id w : String) (kind : RequestKind) (expiresAt : Option Int) (now : Int)
  | updateExpired (id : String) (now : Int)
  | updateResolved (id payload : String) (now : Int)
  | selectRequestState (id : String)
  | updateAllExpired (now : Int)
  deriving DecidableEq, Repr

namespace Sql

/-- What a statement returns when it succeeds. -/
@[reducible] def Ret : Sql → Type
  | selectWorkflow _ => Option WorkflowRow
  | selectBinding _ => Option (String × Option String)
  | appendEvent _ _ _ => Int
  | selectEventsAfter _ _ _ => List WorkflowEvent
  | selectRingStats _ => RingStats
  | selectOutbox _ => List OutboxEntry
  | updatePublished _ _ => Nat
  | updateResolved _ _ _ => Nat
  | selectRequestState _ => Option RequestState
  | updateAllExpired _ => Nat
  | _ => Unit

/-- A statement that only writes, beside its empty result. -/
def wrote (db : Db) : Except StorageError Db → Db × Except StorageError Unit
  | .ok db' => (db', .ok ())
  | .error e => (db, .error e)

/-- One statement. -/
def step : (s : Sql) → Db → Db × Except StorageError s.Ret
  | selectWorkflow w, db => (db, .ok (db.getWorkflow w))
  | insertWorkflow row, db => wrote db (db.insertWorkflow row)
  | updateWorkflowState w state now, db => wrote db (db.updateWorkflowState w state now)
  | upsertBinding row, db => wrote db (db.upsertBinding row)
  | selectBinding w, db =>
      (db, .ok ((db.bindingOf w).map fun r => (r.providerSessionId, r.resumePointer)))
  | appendEvent d now trimNow, db =>
      match db.appendTx d now trimNow with
      | .ok (db', seq) => (db', .ok seq)
      | .error e => (db, .error e)
  | selectEventsAfter w afterSeq limit, db => (db, .ok (db.eventsAfter w afterSeq limit))
  | selectRingStats w, db => (db, .ok (db.ringStats w))
  | selectOutbox limit, db => (db, .ok (db.outboxDrain limit))
  | updatePublished e now, db =>
      ((db.updatePublished e now).1, .ok (db.updatePublished e now).2)
  | insertRequest id w kind expiresAt now, db =>
      wrote db (db.insertRequest id w kind expiresAt now)
  | updateExpired id now, db => (db.updateExpired id now, .ok ())
  | updateResolved id payload now, db =>
      ((db.updateResolved id payload now).1, .ok (db.updateResolved id payload now).2)
  | selectRequestState id, db => (db, .ok ((db.requestOf id).map RequestRow.state))
  | updateAllExpired now, db => ((db.updateAllExpired now).1, .ok (db.updateAllExpired now).2)

/-! ### What a statement did, for histories -/

/-- The number an append to workflow `w` was given, if the statement is one
and succeeds. -/
def gave (w : String) : Sql → Db → List Int
  | appendEvent d now trimNow, db =>
      match db.appendTx d now trimNow with
      | .ok (_, seq) => if d.workflowId = w then [seq] else []
      | .error _ => []
  | _, _ => []

/-- The outbox entry an append adds, with the clock reading it is enqueued
under. -/
def stamps : Sql → Db → List (OutboxEntry × Int)
  | appendEvent d now trimNow, db =>
      match db.appendTx d now trimNow with
      | .ok (_, seq) => [(⟨d.workflowId, seq⟩, now)]
      | .error _ => []
  | _, _ => []

/-- The appended entry a statement marks published. -/
def marks : Sql → Db → List OutboxEntry
  | updatePublished e _, db => if e ∈ db.outbox.map OutboxRow.entry then [e] else []
  | _, _ => []

end Sql

namespace Db

/-- The file after statements in order.  Processes that end early and start
again only leave some statements out. -/
def run : Db → List Sql → Db
  | db, [] => db
  | db, s :: ss => run (s.step db).1 ss

/-- The numbers that the appends to one workflow were given. -/
def given (w : String) : Db → List Sql → List Int
  | _, [] => []
  | db, s :: ss => s.gave w db ++ given w (s.step db).1 ss

/-- All appends, each with its clock reading. -/
def stamps : Db → List Sql → List (OutboxEntry × Int)
  | _, [] => []
  | db, s :: ss => s.stamps db ++ stamps (s.step db).1 ss

/-- The entries of all appends. -/
def appended (db : Db) (ss : List Sql) : List OutboxEntry := (db.stamps ss).map Prod.fst

/-- The entries marked published after they were appended. -/
def marked : Db → List Sql → List OutboxEntry
  | _, [] => []
  | db, s :: ss => s.marks db ++ marked (s.step db).1 ss

end Db

end Calcar.Agent
