import Calcar.Store.Combined

/-!
# The in-memory store

The pairing methods of `memStore` in `main.go`, which serves when no database is
configured.  A method holds the mutex from its first line to its last, so it is one
function from the store and the instant `time.Now` gives to the store and the
result.  `RecordGrant`, which no method calls, is the only one that writes `grants`.

`PairingCall` are the four methods both stores have, `report` what a session says of
its status and its join.
-/

namespace Calcar

open Lib

/-- The maps of `memStore` that the pairing methods use. -/
structure MemStore where
  sessions : String → Option PairingSession := fun _ => none
  grants : List TrustGrant := []

namespace MemStore

/-- Set the entry of a session. -/
def put (m : MemStore) (id : String) (s : PairingSession) : MemStore :=
  { m with sessions := fun id' => if id' = id then some s else m.sessions id' }

@[simp] theorem put_self (m : MemStore) (id : String) (s : PairingSession) :
    (m.put id s).sessions id = some s := if_pos rfl

theorem put_ne (m : MemStore) {id id' : String} (s : PairingSession) (h : id' ≠ id) :
    (m.put id s).sessions id' = m.sessions id' := if_neg h

@[simp] theorem put_grants (m : MemStore) (id : String) (s : PairingSession) :
    (m.put id s).grants = m.grants := rfl

/-- `CreatePairingSession`. -/
def createPairingSession (m : MemStore) (s : PairingSession) : MemStore × Except Err Unit :=
  if (m.sessions s.id).isSome then
    (m, .error .conflict)
  else
    (m.put s.id { s with status := some .pending }, .ok ())

/-- `GetPairingSession`. -/
def getPairingSession (m : MemStore) (id : String) : Except Err PairingSession :=
  match m.sessions id with
  | none => .error .notFound
  | some s => .ok s

/-- `SubmitJoinRequest`. -/
def submitJoinRequest (m : MemStore) (now : Time) (sessionId : String) (j : Join) :
    MemStore × Except Err Unit :=
  match m.sessions sessionId with
  | none => (m, .error .notFound)
  | some s =>
      if s.expiresAt < now then
        (m.put sessionId { s with status := some .expired }, .error .expired)
      else if s.status ≠ some .pending ∨ s.joinRequestId ≠ "" then
        (m, .error .gone)
      else
        (m.put sessionId { s with
            joinPubKey := j.pubKey
            joinFingerprint := j.fingerprint
            joinName := j.name
            joinRequestId := j.requestId }, .ok ())

/-- `DecidePairingSession`: the signature and the granter are not looked at. -/
def decidePairingSession (m : MemStore) (now : Time) (sessionId : String) (approve : Bool)
    (subjectPubKey : Bytes) : MemStore × Except Err Unit :=
  match m.sessions sessionId with
  | none => (m, .error .notFound)
  | some s =>
      if s.expiresAt < now then
        (m.put sessionId { s with status := some .expired }, .error .expired)
      else if s.status ≠ some .pending then
        (m, .error .gone)
      else if s.joinRequestId = "" then
        (m, .error .conflict)
      else if approve = true ∧ subjectPubKey ≠ s.joinPubKey then
        (m, .error .forbidden)
      else
        (m.put sessionId { s with
            status := some (if approve = true then .approved else .rejected) }, .ok ())

end MemStore

/-! ## The methods both stores have -/

/-- A call of a pairing method. -/
inductive PairingCall where
  | create (s : PairingSession)
  | get (id : String)
  | submit (sessionId : String) (j : Join)
  | decide (sessionId : String) (approve : Bool) (subjectPubKey granterSig : Bytes)
      (granterDeviceId : String)

/-- The status and the join fields of a session. -/
structure Report where
  status : Option Status
  pubKey : Bytes
  fingerprint : String
  name : String
  requestId : String
  deriving DecidableEq, Repr

def PairingSession.report (s : PairingSession) : Report where
  status := s.status
  pubKey := s.joinPubKey
  fingerprint := s.joinFingerprint
  name := s.joinName
  requestId := s.joinRequestId

/-- What is compared: the error, or what a session that was read reports. -/
abbrev PairingAns : Type := Except Err (Option Report)

def plainAns (r : Except Err Unit) : PairingAns := r.map fun _ => none

def readAns (r : Except Err PairingSession) : PairingAns := r.map fun s => some s.report

/-- The call on the in-memory store. -/
def PairingCall.onMemory : PairingCall → Time → MemStore → MemStore × PairingAns
  | .create s, _, m => ((m.createPairingSession s).1, plainAns (m.createPairingSession s).2)
  | .get id, _, m => (m, readAns (m.getPairingSession id))
  | .submit id j, now, m =>
      ((m.submitJoinRequest now id j).1, plainAns (m.submitJoinRequest now id j).2)
  | .decide id approve pub _ _, now, m =>
      ((m.decidePairingSession now id approve pub).1,
        plainAns (m.decidePairingSession now id approve pub).2)

/-- A program alone, on stores that work. -/
def quietly {α : Type} (p : Core.M α) (w : World) : Option (α × World) :=
  p.eval Core.exec 0 (fun _ => {}) w

/-- The call on the combined store. -/
def PairingCall.onCombined (C : Crypto) : PairingCall → World → Option (PairingAns × World)
  | .create s, w =>
      (quietly (combined C (.createPairingSession s)) w).map fun x => (plainAns x.1, x.2)
  | .get id, w =>
      (quietly (combined C (.getPairingSession id)) w).map fun x => (readAns x.1, x.2)
  | .submit id j, w =>
      (quietly (combined C (.submitJoinRequest id j)) w).map fun x => (plainAns x.1, x.2)
  | .decide id approve pub sig granter, w =>
      (quietly (combined C (.decidePairingSession id approve pub sig granter)) w).map fun x =>
        (plainAns x.1, x.2)

end Calcar
