import Calcar.Api.Routes
import Calcar.Store.PgSteps

/-!
# The commands behind each store method

A method of the seam may read what it likes; what it can write is fixed by
the method and its arguments.  `Issues c` lists the writing commands of
method `c`, with the arguments they can have, and `combined_issues` says
that the combined store keeps to the list in every run.

## Main results

* `combined_issues` — the list is complete.
* `only_toSrv` — the list of a core program as a list of server commands.
-/

namespace Calcar

open Lib

namespace Core

/-- Commands that change nothing but the bytes drawn. -/
def Reads : Core → Prop
  | .pg (.selectDevice _) | .pg (.selectUserDevices _) | .pg (.selectRevoked _)
  | .pg (.selectSession _) | .pg (.selectConn _) | .pg .ping => True
  | .rd (.hgetallPairing _) | .rd (.ttlPairing _) | .rd (.getChallenge _)
  | .rd (.hgetallToken _ _) | .rd (.smembersIndex _ _) | .rd (.hgetallPresence _)
  | .rd .ping => True
  | .now | .rand _ => True
  | _ => False

end Core

namespace Redis

/-- The writes of a mark. -/
def Marks (id : String) (st : Status) : Core → Prop
  | .rd (.hsetPairing id' patch) =>
      id' = id ∧ ∃ at', patch = { status := some st, decidedAt := some at' }
  | .rd (.expirePairing id' ttl) => id' = id ∧ ttl = consumedKeep
  | _ => False

/-- The writes of a token issue. -/
def IssuesToken (kind : Rd.TokenKind) (device user : String) (ttl : Time) : Core → Prop
  | .rd (.hsetToken kind' _ device' user') => kind' = kind ∧ device' = device ∧ user' = user
  | .rd (.expireToken kind' _ ttl') => kind' = kind ∧ ttl' = ttl
  | .rd (.saddIndex kind' device' _) => kind' = kind ∧ device' = device
  | .rd (.expireIndex kind' device' ttl') =>
      kind' = kind ∧ device' = device ∧ ttl' = ttl + Time.hour
  | _ => False

end Redis

namespace Seam

/-- The writing commands of a method. -/
def Writes : Seam → Core → Prop
  | .createUser, .pg (.insertUser _) => True
  | .registerDevice d, .pg (.insertDevice d') =>
      d' = { d with revoked := false } ∧ d.id ≠ "" ∧ d.userId ≠ "" ∧ d.pubKey ≠ []
  | .revokeDevice _ _ _, .pg .beginTx | .revokeDevice _ _ _, .pg .commit
  | .revokeDevice _ _ _, .pg .rollback => True
  | .revokeDevice id _ _, .pg (.txDeviceExists id') => id' = id
  | .revokeDevice id by' why, .pg (.txAddRevocation r) => r = ⟨id, by', why⟩
  | .revokeDevice id _ _, .pg (.txRevokeDevice id') => id' = id
  | .createPairingSession s, .pg (.insertSession row) =>
      row = Postgres.newRow s ∧ s.id ≠ "" ∧ s.userId ≠ ""
  | .createPairingSession s, .rd (.hsetnxStatus id st) =>
      id = s.id ∧ st = s.status.getD .pending
  | .createPairingSession s, .rd (.hsetPairing id patch) =>
      id = s.id ∧ patch = Redis.createFields s
  | .createPairingSession s, .rd (.expirePairing id _) => id = s.id
  | .getPairingSession id, .pg (.expirePending id') => id' = id
  | .submitJoinRequest _ _, .pg .beginTx | .submitJoinRequest _ _, .pg .commit
  | .submitJoinRequest _ _, .pg .rollback => True
  | .submitJoinRequest id _, .pg (.txSelectSession id') => id' = id
  | .submitJoinRequest id _, .pg (.txExpirePending id') => id' = id
  | .submitJoinRequest id j, .pg (.txRecordJoin id' j') => id' = id ∧ j' = j
  | .submitJoinRequest id j, .rd (.hsetnxJoinReq id' rid) => id' = id ∧ rid = j.requestId
  | .submitJoinRequest id j, .rd (.hsetPairing id' patch) =>
      id' = id ∧ (patch = {
          joinPub := some j.pubKey, joinFp := some j.fingerprint, joinName := some j.name } ∨
        Redis.Marks id .consumed (.rd (.hsetPairing id' patch)))
  | .submitJoinRequest id _, .rd (.expirePairing id' _) => id' = id
  | .decidePairingSession _ _ _ _ _, .pg .beginTx
  | .decidePairingSession _ _ _ _ _, .pg .commit
  | .decidePairingSession _ _ _ _ _, .pg .rollback => True
  | .decidePairingSession id _ _ _ _, .pg (.txSelectForUpdate id') => id' = id
  | .decidePairingSession id _ _ _ _, .pg (.txExpire id') => id' = id
  | .decidePairingSession _ _ pub _ _, .pg (.txDeviceByKey _ pub') => pub' = pub
  | .decidePairingSession id approve pub sig granter, .pg (.txAddGrant g) =>
      approve = true ∧ g.session = id ∧ g.subjectPubKey = pub ∧ g.signature = sig ∧
        g.granterDeviceId = granter
  | .decidePairingSession id approve _ sig granter, .pg (.txDecide id' st granter' sig') =>
      id' = id ∧ st = (if approve = true then .approved else .rejected) ∧
        granter' = granter ∧ sig' = sig
  | .decidePairingSession id _ _ _ _, .rd (.hsetPairing id' patch) =>
      ∃ st, st ≠ .pending ∧ Redis.Marks id st (.rd (.hsetPairing id' patch))
  | .decidePairingSession id _ _ _ _, .rd (.expirePairing id' _) => id' = id
  | .issueChallenge device, .rd (.setChallenge device' _ _) => device' = device
  | .consumeChallenge device _, .rd (.delChallenge device') => device' = device
  | .issueAccessToken device user ttl, c => Redis.IssuesToken .access device user ttl c
  | .issueRefreshToken device user ttl, c => Redis.IssuesToken .refresh device user ttl c
  | .revokeDeviceTokens _, .rd (.delToken _ _) => True
  | .revokeDeviceTokens device, .rd (.delIndex _ device') => device' = device
  | .consumeRefreshToken device token, .rd (.evalConsumeRefresh token' device') =>
      token' = token ∧ device' = device
  | .setPresence p, .pg (.upsertConn _ device) => device = p.deviceId
  | .setPresence p, .rd (.hsetPresence device _) => device = p.deviceId
  | .setPresence p, .rd (.expirePresence device _) => device = p.deviceId
  | .setPresence p, .rd (.setConn _ device _) => device = p.deviceId
  | .setPushToken device pf tok, .pg (.upsertPushToken device' pf' tok') =>
      device' = device ∧ pf' = pf ∧ tok' = tok
  | .setPushToken device pf tok, .rd (.hsetPushToken device' pf' tok') =>
      device' = device ∧ pf' = pf ∧ tok' = tok
  | .enqueueAttention user _, .rd (.rpushNotify user' _) => user' = user
  | .enqueueAttention user _, .rd (.ltrimNotify user' _) => user' = user
  | .checkAndMarkRequest rid ttl, .rd (.setnxReplay rid' ttl') =>
      rid' = rid ∧ ttl' = ttl
  | _, _ => False

/-- Reads are free, writes are those of the method. -/
def Issues (c : Seam) (cmd : Core) : Prop := cmd.Reads ∨ c.Writes cmd

end Seam

/-! ## Postgres -/

namespace Postgres

theorem only_pg {P : Core → Prop} {c : PgCmd} (h : P (.pg c)) : (pg c).Only P :=
  Prog.only_perform h

theorem only_clock {P : Core → Prop} (h : P .now) : clock.Only P :=
  Prog.only_perform h

theorem only_query {P : Core → Prop} {c : PgCmd} (h : P (.pg c)) : (query c).Only P := by
  apply Prog.Only.bind (only_pg h)
  rintro (e | a)
  · trivial
  · trivial

theorem only_withTx {P : Core → Prop} {α : Type} {body : Core.M (Except Err α)}
    (hb : P (.pg .beginTx)) (hr : P (.pg .rollback)) (h : body.Only P) :
    (withTx body).Only P := by
  apply Prog.Only.bind (only_pg hb)
  rintro (e | a)
  · trivial
  · apply Prog.Only.bind h
    intro r
    exact (only_pg hr).bind fun _ => trivial

variable {P : Core → Prop}

theorem only_createUser (hr : P (.rand 16)) (h : ∀ id, P (.pg (.insertUser id))) :
    createUser.Only P := by
  apply Prog.Only.bind (Prog.only_perform hr)
  intro b
  apply Prog.Only.bind (only_query (h _))
  rintro (e | a) <;> trivial

theorem only_registerDevice {d : Device}
    (h : d.id ≠ "" → d.userId ≠ "" → d.pubKey ≠ [] →
      P (.pg (.insertDevice { d with revoked := false }))) :
    (registerDevice d).Only P := by
  unfold registerDevice
  split
  · trivial
  · rename_i hne
    rw [not_or, not_or] at hne
    exact only_query (h hne.1 hne.2.1 hne.2.2)

theorem only_getDevice {id : String} (h : P (.pg (.selectDevice id))) :
    (getDevice id).Only P := by
  apply Prog.Only.bind (only_query h)
  rintro (e | _ | d) <;> trivial

theorem only_revokeDevice {id by' why : String} (hb : P (.pg .beginTx))
    (hr : P (.pg .rollback)) (hc : P (.pg .commit)) (he : P (.pg (.txDeviceExists id)))
    (ha : P (.pg (.txAddRevocation ⟨id, by', why⟩))) (hu : P (.pg (.txRevokeDevice id))) :
    (revokeDevice id by' why).Only P := by
  apply only_withTx hb hr
  apply Prog.Only.bind (only_pg he)
  rintro (e | _ | _)
  · trivial
  · trivial
  · apply Prog.Only.bind (only_query ha)
    rintro (e | a)
    · trivial
    · apply Prog.Only.bind (only_query hu)
      rintro (e | a)
      · trivial
      · apply Prog.Only.bind (only_pg hc)
        rintro (e | a) <;> trivial

theorem only_createPairingSession {s : PairingSession}
    (h : s.id ≠ "" → s.userId ≠ "" → P (.pg (.insertSession (newRow s)))) :
    (createPairingSession s).Only P := by
  unfold createPairingSession
  split
  · trivial
  · rename_i hne
    rw [not_or] at hne
    exact only_query (h hne.1 hne.2)

theorem only_getPairingSession {id : String} (hs : P (.pg (.selectSession id)))
    (hn : P .now) (he : P (.pg (.expirePending id))) : (getPairingSession id).Only P := by
  apply Prog.Only.bind (only_query hs)
  rintro (e | _ | row)
  · trivial
  · trivial
  · show (ite _ _ _ : Core.M _).Only P
    split
    · apply Prog.Only.bind (only_clock hn)
      intro now
      show (ite _ _ _ : Core.M _).Only P
      split
      · trivial
      · apply Prog.Only.bind (only_query he)
        rintro (e | a) <;> trivial
    · trivial

theorem only_submitJoinRequest {id : String} {j : Join} (hb : P (.pg .beginTx))
    (hr : P (.pg .rollback)) (hc : P (.pg .commit)) (hs : P (.pg (.txSelectSession id)))
    (hn : P .now) (he : P (.pg (.txExpirePending id)))
    (hj : P (.pg (.txRecordJoin id j))) : (submitJoinRequest id j).Only P := by
  unfold submitJoinRequest
  split
  · trivial
  · apply only_withTx hb hr
    apply Prog.Only.bind (only_query hs)
    rintro (e | _ | row)
    · trivial
    · trivial
    · show (ite _ _ _ : Core.M _).Only P
      split
      · trivial
      · apply Prog.Only.bind (only_clock hn)
        intro now
        show (ite _ _ _ : Core.M _).Only P
        split
        · exact (only_pg he).bind fun _ => (only_pg hc).bind fun _ => trivial
        · split
          · trivial
          · apply Prog.Only.bind (only_query hj)
            rintro (e | n)
            · trivial
            · show (ite _ _ _ : Core.M _).Only P
              split
              · trivial
              · exact only_query hc

theorem only_finishDecision {id granter : String} {st : Status} {sig : Bytes}
    (hd : P (.pg (.txDecide id st granter sig))) (hc : P (.pg .commit)) :
    (finishDecision id st granter sig).Only P := by
  apply Prog.Only.bind (only_query hd)
  rintro (e | a)
  · trivial
  · apply Prog.Only.bind (only_pg hc)
    rintro (e | a) <;> trivial

theorem only_decidePairingSession {C : Crypto} {id granter : String} {approve : Bool}
    {pub sig : Bytes} (hb : P (.pg .beginTx)) (hr : P (.pg .rollback))
    (hc : P (.pg .commit)) (hs : P (.pg (.txSelectForUpdate id))) (hn : P .now)
    (he : P (.pg (.txExpire id)))
    (hk : ∀ user, P (.pg (.txDeviceByKey user pub)))
    (hg : ∀ g : TrustGrant, approve = true → g.session = id → g.subjectPubKey = pub →
      g.signature = sig → g.granterDeviceId = granter → P (.pg (.txAddGrant g)))
    (hd : P (.pg (.txDecide id (if approve = true then .approved else .rejected)
      granter sig))) :
    (decidePairingSession C id approve pub sig granter).Only P := by
  apply only_withTx hb hr
  apply Prog.Only.bind (only_query hs)
  rintro (e | _ | row)
  · trivial
  · trivial
  · apply Prog.Only.bind (only_clock hn)
    intro now
    show (ite _ _ _ : Core.M _).Only P
    split
    · trivial
    · split
      · apply Prog.Only.bind (only_query he)
        rintro (e | a)
        · trivial
        · apply Prog.Only.bind (only_query hc)
          rintro (e | a) <;> trivial
      · split
        · rename_i happ
          rw [if_pos happ] at hd
          split
          · trivial
          · split
            · trivial
            · apply Prog.Only.bind (only_pg (hk _))
              intro found
              apply Prog.Only.bind (only_query (hg _ happ rfl rfl rfl rfl))
              rintro (e | a)
              · trivial
              · exact only_finishDecision hd hc
        · rename_i happ
          rw [if_neg happ] at hd
          exact only_finishDecision hd hc

theorem only_setPresence {p : Presence} (h : P (.pg (.upsertConn p.connId p.deviceId))) :
    (setPresence p).Only P := by
  unfold setPresence
  split
  · trivial
  · exact only_query h

theorem only_getPresence {device : String} (h : P (.pg (.selectConn device))) :
    (getPresence device).Only P := by
  apply Prog.Only.bind (only_query h)
  rintro (e | _ | row) <;> trivial

theorem only_setPushToken {device pf tok : String}
    (h : P (.pg (.upsertPushToken device pf tok))) : (setPushToken device pf tok).Only P := by
  unfold setPushToken
  split
  · trivial
  · exact only_query h

end Postgres

/-! ## Redis -/

namespace Redis

variable {P : Core → Prop}

theorem only_rd {c : RdCmd} (h : P (.rd c)) : (rd c).Only P := Prog.only_perform h

theorem only_clock (h : P .now) : clock.Only P := Prog.only_perform h

theorem only_createPairingSession {s : PairingSession} (hn : P .now)
    (hx : P (.rd (.hsetnxStatus s.id (s.status.getD .pending))))
    (hf : P (.rd (.hsetPairing s.id (createFields s))))
    (he : ∀ ttl, P (.rd (.expirePairing s.id ttl))) :
    (createPairingSession s).Only P := by
  unfold createPairingSession
  split
  · trivial
  · apply Prog.Only.bind (only_clock hn)
    intro now
    show (ite _ _ _ : Core.M _).Only P
    split
    · trivial
    · apply Prog.Only.bind (only_rd hx)
      rintro (e | _ | _)
      · trivial
      · trivial
      · apply Prog.Only.bind (only_rd hf)
        rintro (e | a)
        · trivial
        · exact only_rd (he _)

theorem only_readSession {id : String} (h : P (.rd (.hgetallPairing id))) :
    (readSession id).Only P := by
  apply Prog.Only.bind (only_rd h)
  rintro (e | _ | m) <;> trivial

theorem only_getPairingSession {id : String} (h : P (.rd (.hgetallPairing id)))
    (hn : P .now) : (getPairingSession id).Only P := by
  apply Prog.Only.bind (only_readSession h)
  rintro (e | sess)
  · trivial
  · show (ite _ _ _ : Core.M _).Only P
    split
    · apply Prog.Only.bind (only_clock hn)
      intro now
      show (ite _ _ _ : Core.M _).Only P
      split <;> trivial
    · trivial

theorem only_submitJoinRequest {id : String} {j : Join}
    (h : P (.rd (.hgetallPairing id))) (hn : P .now)
    (hx : P (.rd (.hsetnxJoinReq id j.requestId))) (ht : P (.rd (.ttlPairing id)))
    (hf : P (.rd (.hsetPairing id {
      joinPub := some j.pubKey, joinFp := some j.fingerprint, joinName := some j.name })))
    (he : ∀ ttl, P (.rd (.expirePairing id ttl))) : (submitJoinRequest id j).Only P := by
  unfold submitJoinRequest
  split
  · trivial
  · apply Prog.Only.bind (only_readSession h)
    rintro (e | sess)
    · trivial
    · show (ite _ _ _ : Core.M _).Only P
      split
      · trivial
      · apply Prog.Only.bind (only_clock hn)
        intro now
        show (ite _ _ _ : Core.M _).Only P
        split
        · trivial
        · split
          · trivial
          · apply Prog.Only.bind (only_rd hx)
            rintro (e | _ | _)
            · trivial
            · trivial
            · apply Prog.Only.bind (only_rd ht)
              rintro (e | ttl)
              · trivial
              · apply Prog.Only.bind (only_rd hf)
                rintro (e | a)
                · trivial
                · show (ite _ _ _ : Core.M _).Only P
                  split
                  · exact (only_rd (he _)).bind fun _ => trivial
                  · trivial

theorem only_checkPairingLive {id : String} (h : P (.rd (.hgetallPairing id)))
    (hn : P .now) : (checkPairingLive id).Only P := by
  apply Prog.Only.bind (only_readSession h)
  rintro (e | sess)
  · trivial
  · show (ite _ _ _ : Core.M _).Only P
    split
    · trivial
    · apply Prog.Only.bind (only_clock hn)
      intro now
      show (ite _ _ _ : Core.M _).Only P
      split <;> trivial

theorem only_markPairingConsumed {id : String} {st : Status} (hn : P .now)
    (h : ∀ c, Marks id st c → P c) : (markPairingConsumed id st).Only P := by
  apply Prog.Only.bind (only_clock hn)
  intro now
  apply Prog.Only.bind (only_rd (h (.rd (.hsetPairing _ _)) ⟨rfl, _, rfl⟩))
  rintro (e | a)
  · trivial
  · exact (only_rd (h (.rd (.expirePairing _ _)) ⟨rfl, rfl⟩)).bind fun _ => trivial

theorem only_newToken (h : P (.rand 32)) : newToken.Only P :=
  (Prog.only_perform h).bind fun _ => trivial

theorem only_issueChallenge {device : String} (hr : P (.rand 32))
    (h : ∀ ch ttl, P (.rd (.setChallenge device ch ttl))) :
    (issueChallenge device).Only P := by
  unfold issueChallenge
  split
  · trivial
  · apply Prog.Only.bind (only_newToken hr)
    intro ch
    apply Prog.Only.bind (only_rd (h _ _))
    rintro (e | a) <;> trivial

theorem only_consumeChallenge {device challenge : String}
    (hg : P (.rd (.getChallenge device))) (hd : P (.rd (.delChallenge device))) :
    (consumeChallenge device challenge).Only P := by
  apply Prog.Only.bind (only_rd hg)
  rintro (e | _ | got)
  · trivial
  · trivial
  · show (ite _ _ _ : Core.M _).Only P
    split
    · trivial
    · exact only_rd hd

theorem only_issueToken {kind : Rd.TokenKind} {device user : String} {ttl : Time}
    (hr : P (.rand 32)) (h : ∀ c, IssuesToken kind device user ttl c → P c) :
    (issueToken kind device user ttl).Only P := by
  unfold issueToken
  split
  · trivial
  · apply Prog.Only.bind (only_newToken hr)
    intro tok
    apply Prog.Only.bind (only_rd (h (.rd (.hsetToken _ _ _ _)) ⟨rfl, rfl, rfl⟩))
    rintro (e | a)
    · trivial
    · apply Prog.Only.bind (only_rd (h (.rd (.expireToken _ _ _)) ⟨rfl, rfl⟩))
      rintro (e | a)
      · trivial
      · apply Prog.Only.bind (only_rd (h (.rd (.saddIndex _ _ _)) ⟨rfl, rfl⟩))
        rintro (e | a)
        · trivial
        · exact (only_rd (h (.rd (.expireIndex _ _ _)) ⟨rfl, rfl, rfl⟩)).bind fun _ => trivial

theorem only_resolveAccessToken {tok : String}
    (h : P (.rd (.hgetallToken .access tok))) : (resolveAccessToken tok).Only P := by
  apply Prog.Only.bind (only_rd h)
  rintro (e | _ | ⟨device, user⟩) <;> trivial

theorem only_pipeline {cmds : List (Core.M (Except Err Unit))}
    (h : ∀ c ∈ cmds, c.Only P) : (pipeline cmds).Only P := by
  induction cmds with
  | nil => trivial
  | cons c rest ih =>
      apply Prog.Only.bind (h c (by simp))
      intro r
      apply Prog.Only.bind (ih fun c hc => h c (by simp [hc]))
      intro rs
      cases r <;> trivial

theorem only_revokeDeviceTokens {device : String}
    (hm : ∀ kind, P (.rd (.smembersIndex kind device)))
    (hd : ∀ kind tok, P (.rd (.delToken kind tok)))
    (hi : ∀ kind, P (.rd (.delIndex kind device))) :
    (revokeDeviceTokens device).Only P := by
  apply Prog.Only.bind (only_rd (hm _))
  rintro (e | toks)
  · trivial
  · apply Prog.Only.bind (only_rd (hm _))
    rintro (e | rfr)
    · trivial
    · apply only_pipeline
      intro c hc
      simp only [List.mem_append, List.mem_map, List.mem_cons, List.not_mem_nil, or_false]
        at hc
      rcases hc with (⟨tok, _, rfl⟩ | ⟨tok, _, rfl⟩) | rfl | rfl
      · exact only_rd (hd _ _)
      · exact only_rd (hd _ _)
      · exact only_rd (hi _)
      · exact only_rd (hi _)

theorem only_consumeRefreshToken {device tok : String}
    (h : P (.rd (.evalConsumeRefresh tok device))) :
    (consumeRefreshToken device tok).Only P := by
  unfold consumeRefreshToken
  split
  · trivial
  · apply Prog.Only.bind (only_rd h)
    rintro (e | _ | user)
    · trivial
    · trivial
    · show (ite _ _ _ : Core.M _).Only P
      split <;> trivial

theorem only_setPresence {p : Presence} (hn : P .now)
    (hp : ∀ h, P (.rd (.hsetPresence p.deviceId h)))
    (he : P (.rd (.expirePresence p.deviceId presenceTTL)))
    (hc : P (.rd (.setConn p.connId p.deviceId presenceTTL))) : (setPresence p).Only P := by
  unfold setPresence
  split
  · trivial
  · apply Prog.Only.bind (only_clock hn)
    intro now
    apply Prog.Only.bind (only_rd (hp _))
    rintro (e | a)
    · trivial
    · apply Prog.Only.bind (only_rd he)
      rintro (e | a)
      · trivial
      · exact only_rd hc

theorem only_getPresence {device : String} (h : P (.rd (.hgetallPresence device))) :
    (getPresence device).Only P := by
  apply Prog.Only.bind (only_rd h)
  rintro (e | _ | m) <;> trivial

theorem only_setPushToken {device pf tok : String}
    (h : P (.rd (.hsetPushToken device pf tok))) : (setPushToken device pf tok).Only P := by
  unfold setPushToken
  split
  · trivial
  · exact only_rd h

theorem only_enqueueAttention {user : String} {a : Attention}
    (hr : ∀ raw, P (.rd (.rpushNotify user raw)))
    (ht : P (.rd (.ltrimNotify user notifyTrim))) : (enqueueAttention user a).Only P := by
  unfold enqueueAttention
  split
  · trivial
  · apply Prog.Only.bind (only_rd (hr _))
    rintro (e | a)
    · trivial
    · exact only_rd ht

theorem only_checkAndMarkRequest {rid : String} {ttl : Time}
    (h : P (.rd (.setnxReplay rid ttl))) : (checkAndMarkRequest rid ttl).Only P := by
  unfold checkAndMarkRequest
  split
  · trivial
  · apply Prog.Only.bind (only_rd h)
    rintro (e | _ | _) <;> trivial

end Redis

/-! ## The combined store -/

namespace Combined

variable {P : Core → Prop}

theorem only_decideDurably {C : Crypto} {id granter : String} {approve : Bool}
    {pub sig : Bytes}
    (hd : (Postgres.decidePairingSession C id approve pub sig granter).Only P)
    (hn : P .now) (hm : ∀ st c, st ≠ .pending → Redis.Marks id st c → P c) :
    (decideDurably C id approve pub sig granter).Only P := by
  apply Prog.Only.bind hd
  rintro (e | a)
  · show (ite _ _ _ : Core.M _).Only P
    split
    · exact (Redis.only_markPairingConsumed hn fun c => hm _ c (by decide)).bind
        fun _ => trivial
    · trivial
  · refine (Redis.only_markPairingConsumed hn fun c => hm _ c ?_).bind fun _ => trivial
    split <;> decide

end Combined

/-- **The list is complete.**  Whatever the databases answer, a method issues
reads and the writes listed for it. -/
theorem combined_issues (C : Crypto) (c : Seam) : (combined C c).Only c.Issues := by
  cases c with
  | createUser => exact Postgres.only_createUser (.inl trivial) fun _ => .inr trivial
  | registerDevice d =>
      exact Postgres.only_registerDevice fun h₁ h₂ h₃ => .inr ⟨rfl, h₁, h₂, h₃⟩
  | getDevice id => exact Postgres.only_getDevice (.inl trivial)
  | listUserDevices user => exact Postgres.only_query (.inl trivial)
  | revokeDevice id by' why =>
      exact Postgres.only_revokeDevice (.inr trivial) (.inr trivial) (.inr trivial)
        (.inr rfl) (.inr rfl) (.inr rfl)
  | isRevoked id => exact Postgres.only_query (.inl trivial)
  | createPairingSession s =>
      apply Prog.Only.bind
        (Postgres.only_createPairingSession fun h₁ h₂ => .inr ⟨rfl, h₁, h₂⟩)
      rintro (e | a)
      · trivial
      · exact Redis.only_createPairingSession (.inl trivial) (.inr ⟨rfl, rfl⟩)
          (.inr ⟨rfl, rfl⟩) fun _ => .inr rfl
  | getPairingSession id =>
      apply Prog.Only.bind (Redis.only_getPairingSession (.inl trivial) (.inl trivial))
      rintro (e | sess)
      · show (ite _ _ _ : Core.M _).Only _
        split
        · trivial
        · exact Postgres.only_getPairingSession (.inl trivial) (.inl trivial) (.inr rfl)
      · trivial
  | submitJoinRequest id j =>
      have hpg : (Postgres.submitJoinRequest id j).Only (Seam.submitJoinRequest id j).Issues :=
        Postgres.only_submitJoinRequest (.inr trivial) (.inr trivial) (.inr trivial)
          (.inr rfl) (.inl trivial) (.inr rfl) (.inr ⟨rfl, rfl⟩)
      apply Prog.Only.bind (Redis.only_submitJoinRequest (.inl trivial) (.inl trivial)
        (.inr ⟨rfl, rfl⟩) (.inl trivial) (.inr ⟨rfl, .inl rfl⟩) fun _ => .inr rfl)
      rintro (e | a)
      · show (ite _ _ _ : Core.M _).Only _
        split
        · trivial
        · exact hpg
      · apply Prog.Only.bind hpg
        rintro (e | a)
        · refine (Redis.only_markPairingConsumed (.inl trivial) ?_).bind fun _ => trivial
          intro c hc
          unfold Redis.Marks at hc
          split at hc
          · exact .inr ⟨hc.1, .inr hc⟩
          · exact .inr hc.1
          · exact hc.elim
        · trivial
  | decidePairingSession id approve pub sig granter =>
      have hdur : (Combined.decideDurably C id approve pub sig granter).Only
          (Seam.decidePairingSession id approve pub sig granter).Issues := by
        apply Combined.only_decideDurably
        · exact Postgres.only_decidePairingSession (.inr trivial) (.inr trivial)
            (.inr trivial) (.inr rfl) (.inl trivial) (.inr rfl) (fun _ => .inr rfl)
            (fun g h₁ h₂ h₃ h₄ h₅ => .inr ⟨h₁, h₂, h₃, h₄, h₅⟩)
            (.inr ⟨rfl, rfl, rfl, rfl⟩)
        · exact .inl trivial
        · intro st c hst hc
          unfold Redis.Marks at hc
          split at hc
          · exact .inr ⟨st, hst, hc⟩
          · exact .inr hc.1
          · exact hc.elim
      apply Prog.Only.bind (Redis.only_checkPairingLive (.inl trivial) (.inl trivial))
      rintro (e | a)
      · show (ite _ _ _ : Core.M _).Only _
        split
        · trivial
        · exact hdur
      · exact hdur
  | issueChallenge device =>
      exact Redis.only_issueChallenge (.inl trivial) fun _ _ => .inr rfl
  | consumeChallenge device ch =>
      exact Redis.only_consumeChallenge (.inl trivial) (.inr rfl)
  | issueAccessToken device user ttl =>
      exact Redis.only_issueToken (.inl trivial) fun c hc => .inr hc
  | resolveAccessToken tok => exact Redis.only_resolveAccessToken (.inl trivial)
  | revokeDeviceTokens device =>
      exact Redis.only_revokeDeviceTokens (fun _ => .inl trivial)
        (fun _ _ => .inr trivial) fun _ => .inr rfl
  | issueRefreshToken device user ttl =>
      exact Redis.only_issueToken (.inl trivial) fun c hc => .inr hc
  | consumeRefreshToken device tok =>
      exact Redis.only_consumeRefreshToken (.inr ⟨rfl, rfl⟩)
  | setPresence p =>
      apply Prog.Only.bind (Redis.only_setPresence (.inl trivial) (fun _ => .inr rfl)
        (.inr rfl) (.inr rfl))
      rintro (e | a)
      · trivial
      · exact (Postgres.only_setPresence (.inr rfl)).bind fun _ => trivial
  | getPresence device =>
      apply Prog.Only.bind (Redis.only_getPresence (.inl trivial))
      rintro (e | p)
      · show (ite _ _ _ : Core.M _).Only _
        split
        · trivial
        · exact Postgres.only_getPresence (.inl trivial)
      · trivial
  | setPushToken device pf tok =>
      apply Prog.Only.bind (Postgres.only_setPushToken (.inr ⟨rfl, rfl, rfl⟩))
      rintro (e | a)
      · trivial
      · exact Redis.only_setPushToken (.inr ⟨rfl, rfl, rfl⟩)
  | enqueueAttention user a =>
      exact Redis.only_enqueueAttention (fun _ => .inr rfl) (.inr rfl)
  | checkAndMarkRequest rid ttl =>
      exact Redis.only_checkAndMarkRequest (.inr ⟨rfl, rfl⟩)
  | ping =>
      apply Prog.Only.bind (Postgres.only_query (.inl trivial))
      rintro (e | a)
      · trivial
      · exact Redis.only_rd (.inl trivial)

/-! ## Server programs -/

/-- A core program issues core commands. -/
theorem only_toSrv {α : Type} {P : Core → Prop} {p : Core.M α} (h : p.Only P) :
    (Core.toSrv p).Only fun c => ∃ c', c = .core c' ∧ P c' := by
  apply Prog.Only.expand (P := P) _ h
  intro c hc
  exact Prog.only_perform ⟨c, rfl, hc⟩

end Calcar
