import Calcar.Store.Pg
import Calcar.Lib.TtlMap

/-!
# The Redis side: keys with expiry and single commands

The keys `redis.go` uses, one map for each of its key namespaces, and the
commands it sends.  Redis carries out one command at a time and keeps its
own time, so a step is one command; a method of the store is several, and
others may come in between.  A command can fail on the way in both
directions (`Fault`).

Hashes are records of optional fields: a field that was never written reads
as the empty text, and `HSET` leaves the fields it does not name alone.
-/

namespace Calcar

open Lib

namespace Rd

/-- Access and refresh tokens live in two namespaces of the same shape. -/
inductive TokenKind where
  | access
  | refresh
  deriving DecidableEq, Repr

/-- The hash under `pairing:`; `joinPub` holds the bytes behind its hex
text, `expiresAt` and `decidedAt` are Unix seconds. -/
structure PairingHash where
  userId : Option String := none
  createdBy : Option String := none
  status : Option Status := none
  expiresAt : Option Int := none
  qrNonce : Option String := none
  joinReq : Option String := none
  joinPub : Option Bytes := none
  joinFp : Option String := none
  joinName : Option String := none
  decidedAt : Option Int := none
  deriving DecidableEq, Repr

/-- `HSET`: the named fields replace the stored ones. -/
def PairingHash.merge (h patch : PairingHash) : PairingHash where
  userId := patch.userId <|> h.userId
  createdBy := patch.createdBy <|> h.createdBy
  status := patch.status <|> h.status
  expiresAt := patch.expiresAt <|> h.expiresAt
  qrNonce := patch.qrNonce <|> h.qrNonce
  joinReq := patch.joinReq <|> h.joinReq
  joinPub := patch.joinPub <|> h.joinPub
  joinFp := patch.joinFp <|> h.joinFp
  joinName := patch.joinName <|> h.joinName
  decidedAt := patch.decidedAt <|> h.decidedAt

/-- The hash under `presence:`. -/
structure PresenceHash where
  online : Bool
  connId : String
  lastSeen : Int
  deriving DecidableEq, Repr

end Rd

open Rd in
/-- The commands the store sends, named after what they do. -/
inductive RdCmd where
  | hsetnxStatus (id : String) (status : Status)
  | hsetPairing (id : String) (patch : PairingHash)
  | expirePairing (id : String) (ttl : Time)
  | hgetallPairing (id : String)
  | hsetnxJoinReq (id requestId : String)
  | ttlPairing (id : String)
  | setChallenge (device challenge : String) (ttl : Time)
  | getChallenge (device : String)
  | delChallenge (device : String)
  | hsetToken (kind : TokenKind) (token device user : String)
  | expireToken (kind : TokenKind) (token : String) (ttl : Time)
  | hgetallToken (kind : TokenKind) (token : String)
  | delToken (kind : TokenKind) (token : String)
  | saddIndex (kind : TokenKind) (device token : String)
  | expireIndex (kind : TokenKind) (device : String) (ttl : Time)
  | smembersIndex (kind : TokenKind) (device : String)
  | delIndex (kind : TokenKind) (device : String)
  | evalConsumeRefresh (token device : String)
  | setnxReplay (requestId : String) (ttl : Time)
  | hsetPresence (device : String) (p : PresenceHash)
  | expirePresence (device : String) (ttl : Time)
  | hgetallPresence (device : String)
  | setConn (conn device : String) (ttl : Time)
  | hsetPushToken (device platform token : String)
  | rpushNotify (user raw : String)
  | ltrimNotify (user : String) (keep : Nat)
  | ping
  deriving DecidableEq, Repr

open Rd in
/-- The Redis server.  `aof` is its append-only file: which thread had which
write command carried out.  Nothing reads it back. -/
structure RdState where
  now : Time := 0
  pairing : TtlMap String PairingHash := .empty
  challenges : TtlMap String String := .empty
  tokens : TtlMap (TokenKind × String) (String × String) := .empty
  index : TtlMap (TokenKind × String) (List String) := .empty
  replay : TtlMap String Unit := .empty
  presence : TtlMap String PresenceHash := .empty
  conns : TtlMap String String := .empty
  pushTokens : TtlMap String (List (String × String)) := .empty
  notify : TtlMap String (List String) := .empty
  aof : List (Nat × RdCmd) := []

namespace Rd

/-- `SETNX` and `SET` take milliseconds when the duration is not a whole
number of seconds. -/
def setTTL (d : Time) : Time :=
  if d < Time.second ∨ d % Time.second ≠ 0 then
    if 0 < d ∧ d < 1000000 then 1000000 else Int.tdiv d 1000000 * 1000000
  else Time.formatSec d

/-- The reply to `TTL` as go-redis returns it: rounded to whole seconds, and
negative for a missing key or one without expiry. -/
def ttlReply (r : RdState) (id : String) : Time :=
  match r.pairing.entry r.now id with
  | none => -2
  | some e =>
      match e.exp with
      | none => -1
      | some t => ((t - r.now) / 1000000 + 500) / 1000 * Time.second

/-- Take one member out of a set; an empty set is no key. -/
def srem (m : TtlMap (TokenKind × String) (List String)) (now : Time)
    (k : TokenKind × String) (x : String) : TtlMap (TokenKind × String) (List String) :=
  match m.entry now k with
  | none => m
  | some e =>
      let rest := e.val.filter fun y => ¬y = x
      if rest = [] then m.del k else m.set k rest e.exp

/-- Note a write command in the append-only file. -/
def logged (r : RdState) (i : Nat) (c : RdCmd) : RdState :=
  { r with aof := r.aof ++ [(i, c)] }

/-- The script `consumeRefreshLua`: only a match of the device id deletes. -/
def consumeRefresh (r : RdState) (token device : String) : RdState × Option String :=
  match r.tokens.get r.now (.refresh, token) with
  | none => (r, none)
  | some (dev, user) =>
      if dev = device then
        ({ r with
            tokens := r.tokens.del (.refresh, token)
            index := srem r.index r.now (.refresh, device) token }, some user)
      else (r, none)

end Rd

namespace RdCmd

open Rd

/-- What the command returns when it succeeds. -/
@[reducible] def Ret : RdCmd → Type
  | .hsetnxStatus _ _ => Bool
  | .hgetallPairing _ => Option PairingHash
  | .hsetnxJoinReq _ _ => Bool
  | .ttlPairing _ => Time
  | .getChallenge _ => Option String
  | .hgetallToken _ _ => Option (String × String)
  | .smembersIndex _ _ => List String
  | .evalConsumeRefresh _ _ => Option String
  | .setnxReplay _ _ => Bool
  | .hgetallPresence _ => Option PresenceHash
  | _ => Unit

/-- The command as the server carries it out. -/
def step (i : Nat) : (c : RdCmd) → RdState → RdState × c.Ret
  | .hsetnxStatus id status, r =>
      let old := (r.pairing.get r.now id).getD {}
      if old.status.isSome then (r, false)
      else
        ({ logged r i (.hsetnxStatus id status) with
            pairing := r.pairing.update r.now id fun h =>
              { h.getD {} with status := some status } }, true)
  | .hsetPairing id patch, r =>
      ({ logged r i (.hsetPairing id patch) with
          pairing := r.pairing.update r.now id fun h => (h.getD {}).merge patch }, ())
  | .expirePairing id ttl, r =>
      ({ logged r i (.expirePairing id ttl) with
          pairing := r.pairing.expire r.now id (r.now + Time.formatSec ttl) }, ())
  | .hgetallPairing id, r => (r, r.pairing.get r.now id)
  | .hsetnxJoinReq id requestId, r =>
      let old := (r.pairing.get r.now id).getD {}
      if old.joinReq.isSome then (r, false)
      else
        ({ logged r i (.hsetnxJoinReq id requestId) with
            pairing := r.pairing.update r.now id fun h =>
              { h.getD {} with joinReq := some requestId } }, true)
  | .ttlPairing id, r => (r, ttlReply r id)
  | .setChallenge device challenge ttl, r =>
      ({ logged r i (.setChallenge device challenge ttl) with
          challenges := r.challenges.set device challenge (some (r.now + setTTL ttl)) }, ())
  | .getChallenge device, r => (r, r.challenges.get r.now device)
  | .delChallenge device, r =>
      ({ logged r i (.delChallenge device) with
          challenges := r.challenges.del device }, ())
  | .hsetToken kind token device user, r =>
      ({ logged r i (.hsetToken kind token device user) with
          tokens := r.tokens.update r.now (kind, token) fun _ => (device, user) }, ())
  | .expireToken kind token ttl, r =>
      ({ logged r i (.expireToken kind token ttl) with
          tokens := r.tokens.expire r.now (kind, token) (r.now + Time.formatSec ttl) }, ())
  | .hgetallToken kind token, r => (r, r.tokens.get r.now (kind, token))
  | .delToken kind token, r =>
      ({ logged r i (.delToken kind token) with
          tokens := r.tokens.del (kind, token) }, ())
  | .saddIndex kind device token, r =>
      ({ logged r i (.saddIndex kind device token) with
          index := r.index.update r.now (kind, device) fun s =>
            if token ∈ s.getD [] then s.getD [] else s.getD [] ++ [token] }, ())
  | .expireIndex kind device ttl, r =>
      ({ logged r i (.expireIndex kind device ttl) with
          index := r.index.expire r.now (kind, device) (r.now + Time.formatSec ttl) }, ())
  | .smembersIndex kind device, r => (r, (r.index.get r.now (kind, device)).getD [])
  | .delIndex kind device, r =>
      ({ logged r i (.delIndex kind device) with
          index := r.index.del (kind, device) }, ())
  | .evalConsumeRefresh token device, r =>
      let (r', user) := consumeRefresh r token device
      (logged r' i (.evalConsumeRefresh token device), user)
  | .setnxReplay requestId ttl, r =>
      if (r.replay.get r.now requestId).isSome then (r, false)
      else
        ({ logged r i (.setnxReplay requestId ttl) with
            replay := r.replay.set requestId () (some (r.now + setTTL ttl)) }, true)
  | .hsetPresence device p, r =>
      ({ logged r i (.hsetPresence device p) with
          presence := r.presence.update r.now device fun _ => p }, ())
  | .expirePresence device ttl, r =>
      ({ logged r i (.expirePresence device ttl) with
          presence := r.presence.expire r.now device (r.now + Time.formatSec ttl) }, ())
  | .hgetallPresence device, r => (r, r.presence.get r.now device)
  | .setConn conn device ttl, r =>
      ({ logged r i (.setConn conn device ttl) with
          conns := r.conns.set conn device (some (r.now + setTTL ttl)) }, ())
  | .hsetPushToken device platform token, r =>
      ({ logged r i (.hsetPushToken device platform token) with
          pushTokens := r.pushTokens.update r.now device fun s =>
            (s.getD []).filter (fun x => ¬x.1 = platform) ++ [(platform, token)] }, ())
  | .rpushNotify user raw, r =>
      ({ logged r i (.rpushNotify user raw) with
          notify := r.notify.update r.now user fun s => s.getD [] ++ [raw] }, ())
  | .ltrimNotify user keep, r =>
      ({ logged r i (.ltrimNotify user keep) with
          notify := r.notify.update r.now user fun s =>
            (s.getD []).drop ((s.getD []).length - keep) }, ())
  | .ping, r => (r, ())

/-- The command with its fault. -/
def exec (i : Nat) (c : RdCmd) (f : Fault) (r : RdState) : RdState × Except Err c.Ret :=
  match f with
  | .none => ((c.step i r).1, .ok (c.step i r).2)
  | .lost => (r, .error .other)
  | .unacked => ((c.step i r).1, .error .other)

end RdCmd

end Calcar
