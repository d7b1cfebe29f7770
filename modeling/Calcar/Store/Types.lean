import Calcar.Text

/-!
# The store seam: rows, states and errors

The data types of `store.go`.  Roles and session states are closed sets of
string constants there and are enumerations here; times are nanoseconds
since the Unix epoch, which is what `time.Time` resolves.
-/

namespace Calcar

/-- Nanoseconds since the Unix epoch. -/
abbrev Time : Type := Int

namespace Time

def second : Time := 1000000000
def minute : Time := 60 * second
def hour : Time := 60 * minute

/-- `Time.Unix`: whole seconds. -/
def unix (t : Time) : Int := t / 1000000000

/-- `Time.UnixMilli`: whole milliseconds. -/
def unixMilli (t : Time) : Int := t / 1000000

/-- The whole seconds of a duration, as go-redis sends them: a positive
duration below a second is rounded up to one. -/
def formatSec (d : Time) : Time :=
  if 0 < d ∧ d < second then second else Int.tdiv d second * second

/-- A `timestamptz` holds microseconds. -/
def micros (t : Time) : Time := t / 1000 * 1000

end Time

/-- Device roles. -/
inductive Role where
  | ownerPhone
  | trustedPhone
  | computer
  deriving DecidableEq, Repr

/-- The role named by a request; other texts name none. -/
def Role.parse (s : String) : Option Role :=
  if s = "owner_phone" then some .ownerPhone
  else if s = "trusted_phone" then some .trustedPhone
  else if s = "computer" then some .computer
  else none

/-- Pairing session states. -/
inductive Status where
  | pending
  | approved
  | rejected
  | expired
  | consumed
  deriving DecidableEq, Repr

/-- The seam errors; `other` is everything that is none of them. -/
inductive Err where
  | notFound
  | conflict
  | expired
  | gone
  | forbidden
  | replayed
  | other
  deriving DecidableEq, Repr

/-- A registered phone or computer. -/
structure Device where
  id : String
  userId : String
  role : Role
  displayName : String
  pubKey : Bytes
  fingerprint : String
  authorizedBy : String := ""
  revoked : Bool := false
  deriving DecidableEq, Repr

/-- The join recorded on a pairing session. -/
structure Join where
  pubKey : Bytes
  fingerprint : String
  name : String
  requestId : String
  deriving DecidableEq, Repr

/-- A phone-created session as `GetPairingSession` returns it.  `status` is
absent when the live entry carries none; `joinPubKey` and the other join
fields are empty when nothing was recorded. -/
structure PairingSession where
  id : String
  userId : String
  createdBy : String
  status : Option Status
  expiresAt : Time
  qrNonce : String
  joinPubKey : Bytes := []
  joinFingerprint : String := ""
  joinName : String := ""
  joinRequestId : String := ""
  deriving DecidableEq, Repr

/-- A row of `trust_grants`.  The table stores `payload_hash` only; the
session and key it was computed from stand beside it so that statements can
speak about them. -/
structure TrustGrant where
  subjectDeviceId : String
  granterDeviceId : String
  payloadHash : Bytes
  signature : Bytes
  session : String
  subjectPubKey : Bytes
  deriving DecidableEq, Repr

/-- A row of `revocations`. -/
structure Revocation where
  subjectDeviceId : String
  revokerDeviceId : String
  reason : String
  deriving DecidableEq, Repr

/-- Last-seen plus online flag. -/
structure Presence where
  deviceId : String
  online : Bool
  connId : String
  lastSeen : Time
  deriving DecidableEq, Repr

/-- A minimal push hint: ids and kind only. -/
structure Attention where
  computerId : String
  workflowId : String
  kind : String
  deriving DecidableEq, Repr

end Calcar
