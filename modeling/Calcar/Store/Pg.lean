import Calcar.Trust

/-!
# The Postgres side: tables, transactions and row locks

The tables of `migrations/`, the statements the store issues against them,
and what the server does with each.  A statement outside a transaction takes
effect at once.  Inside one, writes are held back until `commit`, an `UPDATE`
or `SELECT ... FOR UPDATE` takes the row's lock until the transaction ends,
and a statement that meets a lock of another transaction waits: its step is
`none`.  An `UPDATE` looks for rows that satisfy its predicate, and evaluates
it again on the row as committed when it gets the lock.  No transaction of the store reads a row it has
written before, so reads see the committed tables.

Any statement can fail on the way (`Fault`), and one with a text that holds U+0000 is
refused.  A failed statement aborts the transaction it belongs to, as Postgres does.
-/

namespace Calcar

/-- How a call to a database ends for the caller. -/
inductive Fault where
  /-- Carried out, and the answer arrives. -/
  | none
  /-- Not carried out; the caller sees an error. -/
  | lost
  /-- Carried out, but the caller sees an error. -/
  | unacked
  deriving DecidableEq, Repr

namespace Pg

/-- A row of `pairing_sessions`. -/
structure SessionRow where
  id : String
  userId : String
  createdBy : String
  status : Status
  expiresAt : Time
  qrNonce : String
  join : Option Join := none
  granterDeviceId : String := ""
  granterSignature : Bytes := []
  deriving DecidableEq, Repr

/-- A row of `connection_metadata`. -/
structure ConnRow where
  connId : String
  deviceId : String
  lastSeen : Time
  deriving DecidableEq, Repr

/-- One change of one table. -/
inductive Write where
  | addUser (id : String)
  | addDevice (d : Device)
  | addRevocation (r : Revocation)
  | revokeDevice (id : String)
  | addSession (s : SessionRow)
  | expireSession (id : String)
  | recordJoin (id : String) (j : Join)
  | addGrant (g : TrustGrant)
  | decideSession (id : String) (status : Status) (granter : String) (sig : Bytes)
  | putPushToken (device platform token : String)
  | putConn (conn device : String) (lastSeen : Time)
  deriving DecidableEq, Repr

/-- What a row lock is on.  A pending value of the unique column
`join_request_id` locks that value. -/
inductive LockKey where
  | device (id : String)
  | session (id : String)
  | joinRequest (id : String)
  deriving DecidableEq, Repr

/-- An open transaction: its writes so far, and whether it has failed. -/
structure Tx where
  writes : List Write := []
  aborted : Bool := false

/-- An entry of the write-ahead log: which thread committed what. -/
structure Commit where
  thread : Nat
  writes : List Write
  deriving DecidableEq, Repr

/-- SQLSTATE classes `mapPgError` tells apart. -/
inductive PgErr where
  | noRows
  | uniqueViolation
  | checkViolation
  | foreignKeyViolation
  | other
  deriving DecidableEq, Repr

/-- `mapPgError`. -/
def mapPgError : PgErr → Err
  | .noRows => .notFound
  | .uniqueViolation => .conflict
  | .checkViolation => .conflict
  | .foreignKeyViolation => .conflict
  | .other => .other

/-- The committed tables. -/
structure Tables where
  users : List String := []
  devices : List Device := []
  revocations : List Revocation := []
  sessions : List SessionRow := []
  grants : List TrustGrant := []
  pushTokens : List (String × String × String) := []
  conns : List ConnRow := []

namespace Tables

/-! ## Rows -/

/-- The device row with this primary key. -/
def device (t : Tables) (id : String) : Option Device :=
  t.devices.find? fun d => d.id = id

/-- The session row with this primary key. -/
def session (t : Tables) (id : String) : Option SessionRow :=
  t.sessions.find? fun s => s.id = id

/-- The device of a user with this key; `(user_id, pubkey)` is unique. -/
def deviceByKey (t : Tables) (userId : String) (pubKey : Bytes) : Option Device :=
  t.devices.find? fun d => d.userId = userId ∧ d.pubKey = pubKey

/-- Durable revocation state: the device flag or any revocation record. -/
def isRevoked (t : Tables) (id : String) : Bool :=
  t.devices.any (fun d => d.id = id ∧ d.revoked = true) ||
    t.revocations.any (fun r => r.subjectDeviceId = id)

/-- The newest sighting of a device. -/
def lastConn (t : Tables) (deviceId : String) : Option ConnRow :=
  (t.conns.filter fun x => x.deviceId = deviceId).foldl
    (fun best x => match best with
      | none => some x
      | some y => if y.lastSeen < x.lastSeen then some x else some y) none

/-- The join request id is taken by some session. -/
def joinRequestTaken (t : Tables) (requestId : String) : Bool :=
  t.sessions.any fun s =>
    match s.join with
    | some j => j.requestId = requestId
    | none => false

/-! ## Writes -/

/-- Change the session row with this key. -/
def modifySession (t : Tables) (id : String) (f : SessionRow → SessionRow) : Tables :=
  { t with sessions := t.sessions.map fun s => if s.id = id then f s else s }

/-- Carry out one write. -/
def apply (t : Tables) : Write → Tables
  | .addUser id => { t with users := t.users ++ [id] }
  | .addDevice d => { t with devices := t.devices ++ [d] }
  | .addRevocation r => { t with revocations := t.revocations ++ [r] }
  | .revokeDevice id =>
      { t with devices := t.devices.map fun d =>
          if d.id = id then { d with revoked := true } else d }
  | .addSession s => { t with sessions := t.sessions ++ [s] }
  | .expireSession id => modifySession t id fun s => { s with status := .expired }
  | .recordJoin id j => modifySession t id fun s => { s with join := some j }
  | .addGrant g => { t with grants := t.grants ++ [g] }
  | .decideSession id status granter sig =>
      modifySession t id fun s =>
        { s with status := status, granterDeviceId := granter, granterSignature := sig }
  | .putPushToken device platform token =>
      { t with pushTokens :=
          t.pushTokens.filter (fun x => ¬(x.1 = device ∧ x.2.1 = platform)) ++
            [(device, platform, token)] }
  | .putConn conn device lastSeen =>
      match t.conns.find? fun x => x.connId = conn with
      | none => { t with conns := t.conns ++ [⟨conn, device, lastSeen⟩] }
      | some _ =>
          { t with conns := t.conns.map fun x =>
              if x.connId = conn then { x with lastSeen := lastSeen } else x }

end Tables

end Pg

open Pg in
/-- The database server. -/
structure PgState extends Tables where
  now : Time := 0
  txs : Nat → Option Tx := fun _ => none
  locks : LockKey → Option Nat := fun _ => none
  wal : List Commit := []

namespace Pg

/-- Carry out the writes of a transaction and log them. -/
def commitWrites (p : PgState) (i : Nat) (ws : List Write) : PgState :=
  { p with toTables := ws.foldl Tables.apply p.toTables, wal := p.wal ++ [⟨i, ws⟩] }

/-! ## Transactions -/

/-- Replace thread `i`'s transaction. -/
def setTx (p : PgState) (i : Nat) (tx : Option Tx) : PgState :=
  { p with txs := fun j => if j = i then tx else p.txs j }

/-- Hold back one more write. -/
def stage (p : PgState) (i : Nat) (tx : Tx) (w : Write) : PgState :=
  setTx p i (some { tx with writes := tx.writes ++ [w] })

/-- Take a lock. -/
def lock (p : PgState) (i : Nat) (k : LockKey) : PgState :=
  { p with locks := fun k' => if k' = k then some i else p.locks k' }

/-- The lock is free or the thread's own. -/
def lockable (p : PgState) (i : Nat) (k : LockKey) : Bool :=
  match p.locks k with
  | none => true
  | some j => j = i

/-- End thread `i`'s transaction and release its locks. -/
def closeTx (p : PgState) (i : Nat) : PgState :=
  { setTx p i none with
    locks := fun k => if p.locks k = some i then none else p.locks k }

/-- Mark thread `i`'s transaction as failed. -/
def abortTx (p : PgState) (i : Nat) : PgState :=
  match p.txs i with
  | some tx => setTx p i (some { tx with aborted := true })
  | none => p

/-! ## Statements -/

/-- U+0000 is the one character whose encoding has a zero byte; no `TEXT` holds it. -/
def hasNul (s : String) : Bool := (Trust.utf8 s).contains 0

end Pg

open Pg in
/-- The statements the store issues, named after what they do. -/
inductive PgCmd where
  | insertUser (id : String)
  | insertDevice (d : Device)
  | selectDevice (id : String)
  | selectUserDevices (userId : String)
  | selectRevoked (id : String)
  | insertSession (s : SessionRow)
  | selectSession (id : String)
  | expirePending (id : String)
  | upsertPushToken (device platform token : String)
  | upsertConn (conn device : String)
  | selectConn (device : String)
  | ping
  | beginTx
  | txDeviceExists (id : String)
  | txAddRevocation (r : Revocation)
  | txRevokeDevice (id : String)
  | txSelectSession (id : String)
  | txSelectForUpdate (id : String)
  | txExpirePending (id : String)
  | txExpire (id : String)
  | txRecordJoin (id : String) (j : Join)
  | txDeviceByKey (userId : String) (pubKey : Bytes)
  | txAddGrant (g : TrustGrant)
  | txDecide (id : String) (status : Status) (granter : String) (sig : Bytes)
  | commit
  | rollback
  deriving DecidableEq, Repr

namespace PgCmd

open Pg

/-- What the statement returns when it succeeds. -/
@[reducible] def Ret : PgCmd → Type
  | .selectDevice _ => Option Device
  | .selectUserDevices _ => List Device
  | .selectRevoked _ => Bool
  | .selectSession _ => Option SessionRow
  | .selectConn _ => Option ConnRow
  | .txDeviceExists _ => Bool
  | .txSelectSession _ => Option SessionRow
  | .txSelectForUpdate _ => Option SessionRow
  | .txRecordJoin _ _ => Nat
  | .txDeviceByKey _ _ => Option String
  | _ => Unit

/-- A statement inside a transaction; without one, or in a failed one, it is
an error. -/
def inTx {α : Type} (i : Nat) (p : PgState)
    (k : Tx → Option (PgState × Except PgErr α)) : Option (PgState × Except PgErr α) :=
  match p.txs i with
  | none => some (p, .error .other)
  | some tx => if tx.aborted then some (p, .error .other) else k tx

/-- A statement whose texts are taken, as the server carries it out; `none` while it waits. -/
def step (i : Nat) : (c : PgCmd) → PgState → Option (PgState × Except PgErr c.Ret)
  | .insertUser id, p =>
      if id ∈ p.users then some (p, .error .uniqueViolation)
      else some (commitWrites p i [.addUser id], .ok ())
  | .insertDevice d, p =>
      if ¬ d.userId ∈ p.users then some (p, .error .foreignKeyViolation)
      else if (p.device d.id).isSome ∨ (p.deviceByKey d.userId d.pubKey).isSome then
        some (p, .error .uniqueViolation)
      else some (commitWrites p i [.addDevice d], .ok ())
  | .selectDevice id, p => some (p, .ok (p.device id))
  | .selectUserDevices userId, p =>
      some (p, .ok (p.devices.filter fun d => d.userId = userId))
  | .selectRevoked id, p => some (p, .ok (p.isRevoked id))
  | .insertSession s, p =>
      if ¬ s.userId ∈ p.users then some (p, .error .foreignKeyViolation)
      else if (p.session s.id).isSome then some (p, .error .uniqueViolation)
      else some (commitWrites p i [.addSession s], .ok ())
  | .selectSession id, p => some (p, .ok (p.session id))
  | .expirePending id, p =>
      match p.session id with
      | none => some (p, .ok ())
      | some s =>
          if s.status = .pending then
            if p.locks (.session id) = none then
              some (commitWrites p i [.expireSession id], .ok ())
            else none
          else some (p, .ok ())
  | .upsertPushToken device platform token, p =>
      some (commitWrites p i [.putPushToken device platform token], .ok ())
  | .upsertConn conn device, p =>
      some (commitWrites p i [.putConn conn device p.now], .ok ())
  | .selectConn device, p =>
      some (p, .ok (p.lastConn device))
  | .ping, p => some (p, .ok ())
  | .beginTx, p => some (setTx p i (some {}), .ok ())
  | .txDeviceExists id, p =>
      inTx i p fun _ => some (p, .ok (p.device id).isSome)
  | .txAddRevocation r, p =>
      inTx i p fun tx => some (stage p i tx (.addRevocation r), .ok ())
  | .txRevokeDevice id, p =>
      inTx i p fun tx =>
        if lockable p i (.device id) then
          some (lock (stage p i tx (.revokeDevice id)) i (.device id), .ok ())
        else none
  | .txSelectSession id, p => inTx i p fun _ => some (p, .ok (p.session id))
  | .txSelectForUpdate id, p =>
      inTx i p fun _ =>
        match p.session id with
        | none => some (p, .ok none)
        | some s =>
            if lockable p i (.session id) then
              some (lock p i (.session id), .ok (some s))
            else none
  | .txExpirePending id, p =>
      inTx i p fun tx =>
        match p.session id with
        | none => some (p, .ok ())
        | some s =>
            if s.status = .pending then
              if lockable p i (.session id) then
                some (lock (stage p i tx (.expireSession id)) i (.session id), .ok ())
              else none
            else some (p, .ok ())
  | .txExpire id, p =>
      inTx i p fun tx =>
        if lockable p i (.session id) then
          some (lock (stage p i tx (.expireSession id)) i (.session id), .ok ())
        else none
  | .txRecordJoin id j, p =>
      inTx i p fun tx =>
        match p.session id with
        | none => some (p, .ok (0 : Nat))
        | some s =>
            if s.status = .pending ∧ s.join = none then
              if lockable p i (.session id) ∧ lockable p i (.joinRequest j.requestId) then
                if p.joinRequestTaken j.requestId then
                  some (abortTx p i, .error .uniqueViolation)
                else
                  some (lock (lock (stage p i tx (.recordJoin id j)) i (.session id)) i
                    (.joinRequest j.requestId), .ok (1 : Nat))
              else none
            else some (p, .ok (0 : Nat))
  | .txDeviceByKey userId pubKey, p =>
      inTx i p fun _ => some (p, .ok ((p.deviceByKey userId pubKey).map Device.id))
  | .txAddGrant g, p =>
      inTx i p fun tx => some (stage p i tx (.addGrant g), .ok ())
  | .txDecide id status granter sig, p =>
      inTx i p fun tx =>
        if lockable p i (.session id) then
          some (lock (stage p i tx (.decideSession id status granter sig)) i
            (.session id), .ok ())
        else none
  | .commit, p =>
      match p.txs i with
      | none => some (p, .error .other)
      | some tx =>
          if tx.aborted then some (closeTx p i, .error .other)
          else some (closeTx (commitWrites p i tx.writes) i, .ok ())
  | .rollback, p => some (closeTx p i, .ok ())

/-- What is left of the transaction when a statement fails on the way: after
a failed `begin` or `commit` there is none, any other failed statement aborts
it. -/
def failed (i : Nat) : PgCmd → PgState → PgState
  | .beginTx, p => closeTx p i
  | .commit, p => closeTx p i
  | _, p => abortTx p i

/-- The parameters of type `TEXT`. -/
def texts : PgCmd → List String
  | .insertUser id | .selectDevice id | .selectUserDevices id | .selectRevoked id
  | .selectSession id | .expirePending id | .selectConn id | .txDeviceExists id
  | .txRevokeDevice id | .txSelectSession id | .txSelectForUpdate id | .txExpirePending id
  | .txExpire id | .txDeviceByKey id _ => [id]
  | .insertDevice d => [d.id, d.userId, d.displayName, d.fingerprint, d.authorizedBy]
  | .insertSession s => [s.id, s.userId, s.createdBy, s.qrNonce]
  | .upsertPushToken device platform token => [device, platform, token]
  | .upsertConn conn device => [conn, device]
  | .txAddRevocation r => [r.subjectDeviceId, r.revokerDeviceId, r.reason]
  | .txRecordJoin id j => [id, j.fingerprint, j.name, j.requestId]
  | .txAddGrant g => [g.subjectDeviceId, g.granterDeviceId]
  | .txDecide id _ granter _ => [id, granter]
  | .ping | .beginTx | .commit | .rollback => []

/-- One of the texts holds U+0000: SQLSTATE 22021. -/
def refused (c : PgCmd) : Bool := c.texts.any Pg.hasNul

/-- The statement with its fault.  A refused one is not run, and ends as a lost one does.
A deferred rollback cannot be lost: the server drops the transaction with the
connection. -/
def exec (i : Nat) (c : PgCmd) (f : Fault) (p : PgState) :
    Option (PgState × Except PgErr c.Ret) :=
  if c = .rollback then c.step i p
  else if c.refused = true then some (c.failed i p, .error .other)
  else
    match f with
    | .none => c.step i p
    | .lost => some (c.failed i p, .error .other)
    | .unacked =>
        match c.step i p with
        | none => none
        | some (p', _) => some (c.failed i p', .error .other)

end PgCmd

end Calcar
