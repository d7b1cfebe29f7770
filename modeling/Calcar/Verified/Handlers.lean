import Calcar.Verified.Requests

/-!
# The store methods behind each handler

A handler may read what it likes; which methods it calls to change something
is fixed by its route.  `Route.Calls` lists them and `routes_calls` says that
every handler keeps to the list, on every path through it.

## Main results

* `routes_callsAs`, `routes_calls` — the list is complete.
* `honly_authenticate` — `authed` itself only reads.
-/

namespace Calcar.Api

open Lib Trust

/-! ## Handler parts and the calls they make -/

/-- Every call the handler part can make satisfies `P`. -/
def HOnly {α : Type} (P : Call → Prop) (h : H α) : Prop := h.run.Only P

section Rules

variable {α β : Type} {P : Call → Prop}

theorem honly_pure (a : α) : HOnly P (pure a : H α) := trivial

theorem honly_throw (r : Reply) : HOnly P (throw r : H α) := trivial

theorem HOnly.bind {x : H α} {f : α → H β} (hx : HOnly P x) (hf : ∀ a, HOnly P (f a)) :
    HOnly P (x >>= f) := by
  have hrun : (x >>= f).run = (x.run >>= ExceptT.bindCont f) := rfl
  unfold HOnly
  rw [hrun]
  apply Prog.Only.bind hx
  rintro (e | a)
  · trivial
  · exact hf a

theorem honly_replyIf (c : Prop) [Decidable c] (r : Reply) : HOnly P (replyIf c r) := by
  unfold replyIf
  split
  · exact honly_throw r
  · exact honly_pure ()

theorem honly_require (x : Option α) (r : Reply) : HOnly P (require x r) := by
  cases x with
  | none => exact honly_throw r
  | some a => exact honly_pure a

theorem honly_decode (body : Json α) : HOnly P (decode body) := by
  cases body with
  | ok a => exact honly_pure a
  | error d => exact honly_throw _

/-- What follows a body that has been read. -/
theorem honly_decoded {body : Json α} {f : α → H β} (h : ∀ a, body = .ok a → HOnly P (f a)) :
    HOnly P (decode body >>= f) := by
  cases body with
  | ok a => exact h a rfl
  | error d => exact honly_throw (writeErr 400 Code.invalidInput.text _ false)

theorem honly_attempt {c : Call} (h : P c) : HOnly P (attempt c) := by
  have hrun : (attempt c).run =
      (perform c >>= fun a => .ret (Except.ok a : Except Reply c.Ans)) := rfl
  unfold HOnly
  rw [hrun]
  exact (Prog.only_perform h).bind fun _ => trivial

theorem honly_store {c : Seam} {bad : Err → Reply} (h : P (.store c)) :
    HOnly P (store c bad) := by
  unfold store
  apply (honly_attempt h).bind
  rintro (e | a)
  · exact honly_throw _
  · exact honly_pure a

theorem honly_fingerprint (S : Server) (pub : Bytes) : HOnly P (fingerprint S pub) := by
  unfold fingerprint
  split
  · exact honly_pure _
  · exact honly_throw _

theorem HOnly.mono {Q : Call → Prop} {x : H α} (h : HOnly P x) (hPQ : ∀ c, P c → Q c) :
    HOnly Q x :=
  Prog.Only.mono h hPQ

/-- The calls of the part as calls of its program. -/
theorem HOnly.run {h : H α} (hh : HOnly P h) : h.run.Only P := hh

end Rules

-- used through its rules; unfolding it would run the handler
attribute [irreducible] HOnly

/-! ## What each route may call -/

/-- Methods that change nothing in either store. -/
def Seam.Looks : Seam → Prop
  | .getDevice _ | .listUserDevices _ | .isRevoked _ | .resolveAccessToken _
  | .getPresence _ | .ping => True
  | _ => False

/-- The methods a route calls to change something. -/
def Route.Writes : Route → Seam → Prop
  | .bootstrap _, .createUser => True
  | .bootstrap _, .registerDevice d => d.role = .ownerPhone
  | .challenge _, .issueChallenge _ => True
  | .verify _, .consumeChallenge _ _ => True
  | .verify _, .issueAccessToken _ _ _ | .verify _, .issueRefreshToken _ _ _ => True
  | .refresh _, .consumeRefreshToken _ _ => True
  | .refresh _, .issueAccessToken _ _ _ | .refresh _, .issueRefreshToken _ _ _ => True
  | .devicesRegister _, .registerDevice _ => True
  | .deviceRevoke id _, .revokeDevice id' _ _ => id' = id
  | .deviceRevoke id _, .revokeDeviceTokens id' => id' = id
  | .pushToken id _, .setPushToken id' _ _ => id' = id
  | .pairingCreate, .createPairingSession s => s.status = some .pending
  | .pairingJoin id _, .getPairingSession id' => id' = id
  | .pairingJoin id _, .submitJoinRequest id' _ => id' = id
  | .pairingGet id, .getPairingSession id' => id' = id
  | .pairingDecision id _, .getPairingSession id' => id' = id
  | .pairingDecision _ _, .registerDevice d => d.role = .computer
  | .pairingDecision id _, .decidePairingSession id' _ _ _ _ => id' = id
  | .heartbeat _, .setPresence _ => True
  | .attention _, .enqueueAttention _ _ => True
  | _, _ => False

/-- What a handler of the route may do: look, mark the request id, and the
writes of the route. -/
def Route.Calls (route : Route) : Call → Prop
  | .store (.checkAndMarkRequest _ _) => True
  | .store c => Seam.Looks c ∨ route.Writes c
  | .now | .rand _ | .notify _ => True

/-- The same, with the request ids it may mark. -/
def Route.CallsAs (route : Route) (ids : String → Prop) : Call → Prop
  | .store (.checkAndMarkRequest rid _) => ids rid
  | c => route.Calls c

theorem Route.CallsAs.calls {route : Route} {ids : String → Prop} {c : Call}
    (h : route.CallsAs ids c) : route.Calls c := by
  cases c with
  | store s =>
      cases s with
      | checkAndMarkRequest rid ttl => trivial
      | _ => exact h
  | _ => trivial

theorem Route.CallsAs.mono {route : Route} {ids ids' : String → Prop} {c : Call}
    (h : route.CallsAs ids c) (hids : ∀ rid, ids rid → ids' rid) : route.CallsAs ids' c := by
  cases c with
  | store s =>
      cases s with
      | checkAndMarkRequest rid ttl => exact hids rid h
      | _ => exact h
  | _ => trivial

section Parts

variable {route : Route} {ids : String → Prop}

theorem honly_now : HOnly (route.CallsAs ids) now := honly_attempt (by trivial)

theorem honly_mark {rid : String} (h : ids rid) :
    HOnly (route.CallsAs ids) (markRequest rid) :=
  honly_store h

theorem honly_idempotent {hdr : String} (h : ids (Text.trimSpace hdr)) :
    HOnly (route.CallsAs ids) (idempotent hdr) :=
  (honly_replyIf _ _).bind fun _ => honly_mark h

theorem honly_looks {c : Seam} {bad : Err → Reply} (h : Seam.Looks c) :
    HOnly (route.CallsAs ids) (store c bad) := by
  apply honly_store
  cases c <;> first | exact .inl h | exact h.elim

theorem honly_writes {c : Seam} {bad : Err → Reply} (h : route.Writes c) :
    HOnly (route.CallsAs ids) (store c bad) := by
  apply honly_store
  cases c with
  | checkAndMarkRequest rid ttl => cases route <;> exact h.elim
  | _ => exact .inr h

theorem honly_refuseRevoked (id : String) (bad : Reply) :
    HOnly (route.CallsAs ids) (refuseRevoked id bad) := by
  unfold refuseRevoked
  refine HOnly.bind (honly_attempt (by exact .inl trivial)) ?_
  rintro (e | _ | _)
  · exact honly_pure ()
  · exact honly_pure ()
  · exact honly_throw bad

theorem honly_activeDevice (id : String) : HOnly (route.CallsAs ids) (activeDevice id) := by
  unfold activeDevice
  refine HOnly.bind (honly_looks (by trivial)) ?_
  intro dev
  refine HOnly.bind (honly_replyIf _ _) ?_
  intro _
  refine HOnly.bind (honly_refuseRevoked _ _) ?_
  intro _
  exact honly_pure dev

theorem honly_ownTarget (me : Device) (target : String) :
    HOnly (route.CallsAs ids) (ownTarget me target) := by
  unfold ownTarget
  refine HOnly.bind (honly_looks (by trivial)) ?_
  intro dev
  exact honly_replyIf _ _

theorem honly_userHasOwner (user : String) : HOnly (route.CallsAs ids) (userHasOwner user) := by
  unfold userHasOwner
  refine HOnly.bind (honly_attempt (by exact .inl trivial)) ?_
  rintro (e | ds)
  · exact honly_pure _
  · exact honly_pure _

/-- `authed` itself only reads. -/
theorem honly_authenticate (hdr : String) : HOnly (route.CallsAs ids) (authenticate hdr) := by
  unfold authenticate
  refine HOnly.bind (honly_replyIf _ _) ?_
  intro _
  refine HOnly.bind (honly_looks (by trivial)) ?_
  rintro ⟨device, user⟩
  refine HOnly.bind (honly_looks (by trivial)) ?_
  intro dev
  refine HOnly.bind (honly_replyIf _ _) ?_
  intro _
  refine HOnly.bind (honly_refuseRevoked _ _) ?_
  intro _
  exact honly_pure _

theorem honly_issuePair (S : Server) (dev : Device)
    (ha : ∀ d u ttl, route.Writes (.issueAccessToken d u ttl))
    (hr : ∀ d u ttl, route.Writes (.issueRefreshToken d u ttl)) :
    HOnly (route.CallsAs ids) (issuePair S dev) := by
  unfold issuePair
  refine HOnly.bind (honly_writes (ha _ _ _)) ?_
  intro tok
  refine HOnly.bind (honly_writes (hr _ _ _)) ?_
  intro rfr
  exact honly_pure _

end Parts

/-! ## The handlers -/

section Handlers

variable {ids : String → Prop} {rid : String}

theorem bootstrap_calls (S : Server) (body : Json BootstrapReq)
    (h : ids (Text.trimSpace rid)) :
    HOnly ((Route.bootstrap body).CallsAs ids) (handleBootstrap S rid body) := by
  unfold handleBootstrap
  refine HOnly.bind (honly_idempotent h) ?_
  intro _
  refine HOnly.bind (honly_decode body) ?_
  intro req
  refine HOnly.bind (honly_require _ _) ?_
  intro name
  refine HOnly.bind (honly_require _ _) ?_
  intro pub
  refine HOnly.bind (honly_fingerprint S pub) ?_
  intro fp
  refine HOnly.bind (honly_writes (by trivial)) ?_
  intro user
  have hid : HOnly ((Route.bootstrap body).CallsAs ids) (bootstrapId req.deviceId) := by
    unfold bootstrapId
    split
    · exact HOnly.bind (honly_attempt (by trivial)) fun _ => honly_pure _
    · exact honly_pure _
  refine HOnly.bind hid ?_
  intro device
  refine HOnly.bind (honly_replyIf _ _) ?_
  intro _
  refine HOnly.bind (honly_userHasOwner user) ?_
  intro has
  refine HOnly.bind (honly_replyIf _ _) ?_
  intro _
  exact HOnly.bind (honly_writes (by rfl)) fun _ => honly_pure _

theorem challenge_calls (body : Json ChallengeReq) :
    HOnly ((Route.challenge body).CallsAs ids) (handleChallenge body) := by
  unfold handleChallenge
  refine HOnly.bind (honly_decode body) ?_
  intro req
  refine HOnly.bind (honly_replyIf _ _) ?_
  intro _
  refine HOnly.bind (honly_looks (by trivial)) ?_
  intro dev
  exact HOnly.bind (honly_writes (by trivial)) fun _ => honly_pure _

theorem verify_calls (S : Server) (body : Json VerifyReq) :
    HOnly ((Route.verify body).CallsAs ids) (handleVerify S body) := by
  unfold handleVerify
  refine HOnly.bind (honly_decode body) ?_
  intro req
  refine HOnly.bind (honly_activeDevice _) ?_
  intro dev
  refine HOnly.bind (honly_require _ _) ?_
  intro sig
  refine HOnly.bind (honly_writes (by trivial)) ?_
  intro _
  refine HOnly.bind (honly_replyIf _ _) ?_
  intro _
  exact honly_issuePair S dev (fun _ _ _ => trivial) fun _ _ _ => trivial

theorem refresh_calls (S : Server) (body : Json RefreshReq)
    (h : ids (Text.trimSpace rid)) :
    HOnly ((Route.refresh body).CallsAs ids) (handleRefresh S rid body) := by
  unfold handleRefresh
  refine HOnly.bind (honly_idempotent h) ?_
  intro _
  refine HOnly.bind (honly_decode body) ?_
  intro req
  refine HOnly.bind (honly_replyIf _ _) ?_
  intro _
  refine HOnly.bind (honly_activeDevice _) ?_
  intro dev
  refine HOnly.bind (honly_writes (by trivial)) ?_
  intro user
  refine HOnly.bind (honly_replyIf _ _) ?_
  intro _
  exact honly_issuePair S dev (fun _ _ _ => trivial) fun _ _ _ => trivial

theorem devicesRegister_calls (S : Server) (me : Device)
    (body : Json RegisterReq)
    (h : ids (Text.trimSpace rid)) :
    HOnly ((Route.devicesRegister body).CallsAs ids) (handleDevicesRegister S rid me body) := by
  unfold handleDevicesRegister
  refine HOnly.bind (honly_idempotent h) ?_
  intro _
  refine HOnly.bind (honly_decode body) ?_
  intro req
  refine HOnly.bind (honly_replyIf _ _) ?_
  intro _
  refine HOnly.bind (honly_require _ _) ?_
  intro name
  have hrename : ∀ existing,
      HOnly ((Route.devicesRegister body).CallsAs ids) (renameDevice me existing req name) := by
    intro existing
    unfold renameDevice
    refine HOnly.bind (honly_replyIf _ _) ?_
    intro _
    refine HOnly.bind (honly_require _ _) ?_
    intro pub
    refine HOnly.bind (honly_replyIf _ _) ?_
    intro _
    refine HOnly.bind (honly_replyIf _ _) ?_
    intro _
    refine HOnly.bind (honly_attempt (by exact .inr trivial)) ?_
    intro stored
    refine HOnly.bind (honly_replyIf _ _) ?_
    intro _
    refine HOnly.bind (honly_attempt (by exact .inl trivial)) ?_
    rintro (e | cur)
    · exact honly_pure _
    · exact honly_pure _
  have hadd : HOnly ((Route.devicesRegister body).CallsAs ids) (addDevice S me req name) := by
    unfold addDevice
    refine HOnly.bind (honly_require _ _) ?_
    intro role
    have hslot : HOnly ((Route.devicesRegister body).CallsAs ids)
        (checkOwnerSlot role me.userId) := by
      unfold checkOwnerSlot
      split
      · refine HOnly.bind (honly_userHasOwner _) ?_
        rintro (e | has)
        · exact honly_throw _
        · exact honly_replyIf _ _
      · exact honly_pure ()
    refine HOnly.bind hslot ?_
    intro _
    refine HOnly.bind (honly_require _ _) ?_
    intro pub
    refine HOnly.bind (honly_fingerprint S pub) ?_
    intro fp
    refine HOnly.bind (honly_replyIf _ _) ?_
    intro _
    exact HOnly.bind (honly_writes (by trivial)) fun _ => honly_pure _
  refine HOnly.bind (honly_attempt (by exact .inl trivial)) ?_
  rintro (e | existing)
  · cases e with
    | notFound => exact hadd
    | _ => exact honly_throw _
  · exact hrename existing

theorem deviceRevoke_calls (me : Device) (target : String)
    (body : Option (Json RevokeReq))
    (h : ids (Text.trimSpace rid)) :
    HOnly ((Route.deviceRevoke target body).CallsAs ids)
      (handleDeviceRevoke rid me target body) := by
  unfold handleDeviceRevoke
  refine HOnly.bind (honly_idempotent h) ?_
  intro _
  refine HOnly.bind (honly_replyIf _ _) ?_
  intro _
  refine HOnly.bind (honly_decode _) ?_
  intro req
  refine HOnly.bind (honly_replyIf _ _) ?_
  intro _
  refine HOnly.bind (honly_ownTarget me target) ?_
  intro _
  refine HOnly.bind (honly_writes (by rfl)) ?_
  intro _
  refine HOnly.bind (honly_writes (by rfl)) ?_
  intro _
  exact HOnly.bind (honly_attempt (by trivial)) fun _ => honly_pure _

theorem pushToken_calls (me : Device) (target : String)
    (body : Json PushTokenReq)
    (h : ids (Text.trimSpace rid)) :
    HOnly ((Route.pushToken target body).CallsAs ids) (handlePushToken rid me target body) := by
  unfold handlePushToken
  refine HOnly.bind (honly_idempotent h) ?_
  intro _
  refine HOnly.bind (honly_decode body) ?_
  intro req
  refine HOnly.bind (honly_replyIf _ _) ?_
  intro _
  refine HOnly.bind (honly_replyIf _ _) ?_
  intro _
  refine HOnly.bind (honly_ownTarget me target) ?_
  intro _
  exact HOnly.bind (honly_writes (by rfl)) fun _ => honly_pure _

theorem pairingCreate_calls (me : Device)
    (h : ids (Text.trimSpace rid)) :
    HOnly (Route.pairingCreate.CallsAs ids) (handlePairingCreate rid me) := by
  unfold handlePairingCreate
  refine HOnly.bind (honly_idempotent h) ?_
  intro _
  refine HOnly.bind (honly_replyIf _ _) ?_
  intro _
  refine HOnly.bind honly_now ?_
  intro t
  refine HOnly.bind (honly_attempt (by trivial)) ?_
  intro b
  refine HOnly.bind (honly_attempt (by trivial)) ?_
  intro n
  exact HOnly.bind (honly_writes (by rfl)) fun _ => honly_pure _

/-- A join marks the id of its body. -/
theorem pairingJoin_calls (S : Server) (id : String) (body : Json JoinReq)
    (h : ∀ req, body = .ok req → ids req.requestId) :
    HOnly ((Route.pairingJoin id body).CallsAs ids) (handlePairingJoin S id body) := by
  unfold handlePairingJoin
  refine honly_decoded ?_
  intro req hreq
  refine HOnly.bind (honly_replyIf _ _) ?_
  intro _
  refine HOnly.bind (honly_require _ _) ?_
  intro pub
  refine HOnly.bind (honly_fingerprint S pub) ?_
  intro fp
  refine HOnly.bind (honly_replyIf _ _) ?_
  intro _
  refine HOnly.bind (honly_require _ _) ?_
  intro name
  refine HOnly.bind (honly_writes (by rfl)) ?_
  intro sess
  refine HOnly.bind honly_now ?_
  intro t
  refine HOnly.bind (honly_replyIf _ _) ?_
  intro _
  refine HOnly.bind (honly_replyIf _ _) ?_
  intro _
  refine HOnly.bind (honly_replyIf _ _) ?_
  intro _
  refine HOnly.bind (honly_mark (h req hreq)) ?_
  intro _
  refine HOnly.bind (honly_writes (by rfl)) ?_
  intro _
  exact HOnly.bind (honly_attempt (by trivial)) fun _ => honly_pure _

theorem pairingGet_calls (me : Device) (id : String) :
    HOnly ((Route.pairingGet id).CallsAs ids) (handlePairingGet me id) := by
  unfold handlePairingGet
  refine HOnly.bind (honly_writes (by rfl)) ?_
  intro sess
  exact HOnly.bind (honly_replyIf _ _) fun _ => honly_pure _

/-- The first half of a decision looks the session up. -/
theorem honly_decidable {route : Route} {S : Server} {me : Device} {id : String}
    {req : DecisionReq} (hget : route.Writes (.getPairingSession id)) :
    HOnly (route.CallsAs ids) (decidable S me id req) := by
  unfold decidable
  refine HOnly.bind (honly_require _ _) ?_
  intro pub
  refine HOnly.bind (honly_writes hget) ?_
  intro sess
  refine HOnly.bind (honly_replyIf _ _) ?_
  intro _
  refine HOnly.bind honly_now ?_
  intro t
  refine HOnly.bind (honly_replyIf _ _) ?_
  intro _
  refine HOnly.bind (honly_replyIf _ _) ?_
  intro _
  refine HOnly.bind (honly_replyIf _ _) ?_
  intro _
  refine HOnly.bind (honly_replyIf _ _) ?_
  intro _
  cases deviceIDForComputer S.crypto pub with
  | ok subject => exact HOnly.bind (honly_pure subject) fun _ => honly_pure _
  | error e => exact HOnly.bind (honly_throw _) fun _ => honly_pure _

theorem pairingDecision_calls (S : Server) (me : Device) (id : String)
    (body : Json DecisionReq)
    (h : ids (Text.trimSpace rid)) :
    HOnly ((Route.pairingDecision id body).CallsAs ids)
      (handlePairingDecision S rid me id body) := by
  unfold handlePairingDecision
  refine HOnly.bind (honly_idempotent h) ?_
  intro _
  refine HOnly.bind (honly_replyIf _ _) ?_
  intro _
  refine HOnly.bind (honly_decode body) ?_
  intro req
  refine HOnly.bind (honly_decidable (by rfl)) ?_
  rintro ⟨sess, pub, subject⟩
  show HOnly _ (ite _ _ _ : H Reply)
  split
  · have hrecord : HOnly ((Route.pairingDecision id body).CallsAs ids)
        (verifiedRecord S me id req sess pub subject) := by
      unfold verifiedRecord
      refine HOnly.bind (honly_require _ _) ?_
      intro sig
      refine HOnly.bind (honly_replyIf _ _) ?_
      intro _
      refine HOnly.bind (honly_require _ _) ?_
      intro nonce
      refine HOnly.bind (honly_replyIf _ _) ?_
      intro _
      refine HOnly.bind honly_now ?_
      intro t
      dsimp only
      split
      · exact honly_pure _
      · exact honly_throw _
    refine HOnly.bind hrecord ?_
    intro rec'
    refine HOnly.bind (honly_attempt (by exact .inr rfl)) ?_
    intro registered
    refine HOnly.bind (honly_replyIf _ _) ?_
    intro _
    refine HOnly.bind (honly_writes (by rfl)) ?_
    intro _
    exact HOnly.bind (honly_attempt (by trivial)) fun _ => honly_pure _
  · refine HOnly.bind (honly_writes (by rfl)) ?_
    intro _
    exact HOnly.bind (honly_attempt (by trivial)) fun _ => honly_pure _

theorem heartbeat_calls (me : Device) (body : Option (Json HeartbeatReq))
    (h : ids (Text.trimSpace rid)) :
    HOnly ((Route.heartbeat body).CallsAs ids) (handleHeartbeat rid me body) := by
  unfold handleHeartbeat
  refine HOnly.bind (honly_idempotent h) ?_
  intro _
  refine HOnly.bind (honly_decode _) ?_
  intro req
  refine HOnly.bind honly_now ?_
  intro t
  refine HOnly.bind (honly_writes (by trivial)) ?_
  intro _
  exact HOnly.bind (honly_attempt (by trivial)) fun _ => honly_pure _

theorem presenceGet_calls (me : Device) (target : String) :
    HOnly ((Route.presenceGet target).CallsAs ids) (handlePresenceGet me target) := by
  unfold handlePresenceGet
  refine HOnly.bind (honly_looks (by trivial)) ?_
  intro dev
  refine HOnly.bind (honly_replyIf _ _) ?_
  intro _
  exact HOnly.bind (honly_looks (by trivial)) fun _ => honly_pure _

theorem attention_calls (me : Device) (body : Json AttentionReq)
    (h : ids (Text.trimSpace rid)) :
    HOnly ((Route.attention body).CallsAs ids) (handleAttention rid me body) := by
  unfold handleAttention
  refine HOnly.bind (honly_idempotent h) ?_
  intro _
  refine HOnly.bind (honly_replyIf _ _) ?_
  intro _
  refine HOnly.bind (honly_decode body) ?_
  intro req
  refine HOnly.bind (honly_replyIf _ _) ?_
  intro _
  refine HOnly.bind (honly_replyIf _ _) ?_
  intro _
  refine HOnly.bind (honly_writes (by trivial)) ?_
  intro _
  exact HOnly.bind (honly_attempt (by trivial)) fun _ => honly_pure _

end Handlers

/-- The handler part of a route keeps to the route's calls. -/
def Handler.Keeps (P : Call → Prop) : Handler → Prop
  | .plain h => HOnly P h
  | .authed next => ∀ me user, HOnly P (next me user)

theorem Handler.Keeps.mono {P Q : Call → Prop} {h : Handler} (hh : h.Keeps P)
    (hPQ : ∀ c, P c → Q c) : h.Keeps Q := by
  cases h with
  | plain h => exact HOnly.mono hh hPQ
  | authed next => exact fun me user => (hh me user).mono hPQ

/-- The request gives this id for the replay check: a join in its body, any
other request in the header. -/
def Request.Gives (r : Request) (rid : String) : Prop :=
  match r.route with
  | .pairingJoin _ body => ∃ req, body = .ok req ∧ req.requestId = rid
  | _ => Text.trimSpace r.requestId = rid

/-- **Every handler keeps to the calls of its route**, and marks the id of its
request and no other. -/
theorem routes_callsAs (S : Server) (r : Request) :
    (routes S r).Keeps (r.route.CallsAs r.Gives) := by
  obtain ⟨hdr, rid, route⟩ := r
  cases route with
  | healthz => exact honly_pure _
  | readyz => exact HOnly.bind (honly_looks (by trivial)) fun _ => honly_pure _
  | bootstrap body => exact bootstrap_calls S body rfl
  | challenge body => exact challenge_calls body
  | verify body => exact verify_calls S body
  | refresh body => exact refresh_calls S body rfl
  | devicesList => exact fun _ _ => HOnly.bind (honly_looks (by trivial)) fun _ => honly_pure _
  | devicesRegister body => exact fun me _ => devicesRegister_calls S me body rfl
  | deviceRevoke id body => exact fun me _ => deviceRevoke_calls me id body rfl
  | pushToken id body => exact fun me _ => pushToken_calls me id body rfl
  | pairingCreate => exact fun me _ => pairingCreate_calls me rfl
  | pairingJoin id body => exact pairingJoin_calls S id body fun req hreq => ⟨req, hreq, rfl⟩
  | pairingGet id => exact fun me _ => pairingGet_calls me id
  | pairingDecision id body => exact fun me _ => pairingDecision_calls S me id body rfl
  | trustGraph => exact fun _ _ => HOnly.bind (honly_looks (by trivial)) fun _ => honly_pure _
  | heartbeat body => exact fun me _ => heartbeat_calls me body rfl
  | presenceGet id => exact fun me _ => presenceGet_calls me id
  | attention body => exact fun me _ => attention_calls me body rfl
  | relayAlloc => exact honly_pure _

/-- The checks of an upgrade only look. -/
theorem checkUpgrade_calls {ids : String → Prop} (u : Upgrade) :
    HOnly (Route.healthz.CallsAs ids) (checkUpgrade u) := by
  unfold checkUpgrade
  refine (honly_replyIf _ _).bind fun _ => (honly_replyIf _ _).bind fun _ =>
    (honly_looks (by trivial)).bind fun who => ?_
  obtain ⟨device, user⟩ := who
  exact (honly_looks (by trivial)).bind fun _ => (honly_replyIf _ _).bind fun _ =>
    (honly_refuseRevoked _ _).bind fun _ => honly_pure _

theorem routes_calls (S : Server) (r : Request) : (routes S r).Keeps r.route.Calls :=
  (routes_callsAs S r).mono fun _ hc => hc.calls

/-! ## What the tasks issue -/

section Tasks

variable {S : Server} {P : Srv → Prop} {Q : Call → Prop}

/-- The calls of `Q` issue commands of `P`. -/
def Yields (S : Server) (Q : Call → Prop) (P : Srv → Prop) : Prop :=
  ∀ c : Call, Q c → (Core.toSrv (c.run S.crypto)).Only P

/-- The commands that are the server's own. -/
def Outer (c : Srv) : Prop := ∀ c', c ≠ .core c'

theorem Yields.program (h : Yields S Q P) {α : Type} {p : M α} (hp : p.Only Q) :
    (toSrv S p).Only P := by
  rw [toSrv_eq]
  exact hp.expand h

theorem Yields.reply (h : Yields S Q P) {x : H Reply} (hx : HOnly Q x) :
    (toSrv S x.reply).Only P := by
  refine h.program (hx.run.bind fun r => ?_)
  cases r with
  | error rep => trivial
  | ok rep => trivial

theorem Yields.serve (h : Yields S Q P) (henter : ∀ dev user, P (.enter dev user)) {r : Request}
    (hauth : HOnly Q (authenticate r.authorization)) (hroutes : (routes S r).Keeps Q) :
    (serve S r).Only P := by
  unfold Api.serve
  cases hroute : routes S r with
  | plain x =>
      rw [hroute] at hroutes
      exact h.reply hroutes
  | authed next =>
      rw [hroute] at hroutes
      refine (h.program hauth.run).bind fun who => ?_
      cases who with
      | error rep => trivial
      | ok who =>
          refine (Prog.only_perform (henter _ _)).bind fun _ => ?_
          exact h.reply (hroutes who.1 who.2)

/-- A connection issues what its presences do, and commands of its own. -/
theorem Yields.connection (h : Yields S Q P) (houter : ∀ c, Outer c → P c)
    (hnow : P (.core .now)) (hrand : P (.core (.rand 16)))
    (hpresence : ∀ p, Q (.store (.setPresence p))) (device user : String) :
    (Api.connection S device user).Only P := by
  have hstore (p : Presence) : (toSrv S (perform (.store (.setPresence p)))).Only P :=
    h.program (Prog.only_perform (hpresence p))
  have hregister (t : Int) : P (.register device user t) := houter _ (by intro _ hc; cases hc)
  have hstart (k : Nat) : P (.start k) := houter _ (by intro _ hc; cases hc)
  have hdone (k : Nat) : P (.done k) := houter _ (by intro _ hc; cases hc)
  have hleave (k : Nat) : P (.unregister device k) := houter _ (by intro _ hc; cases hc)
  refine ⟨hnow, fun _ => ⟨hregister _, fun _ => ⟨hrand, fun _ => ⟨hnow, fun _ =>
    (hstore _).bind fun _ => ?_⟩⟩⟩⟩
  exact ⟨hstart _, fun _ => ⟨hdone _, fun _ => ⟨hleave _, fun _ =>
    ⟨hnow, fun _ => (hstore _).bind fun _ => trivial⟩⟩⟩⟩

theorem Yields.upgrade (h : Yields S Q P) (houter : ∀ c, Outer c → P c)
    (hnow : P (.core .now)) (hrand : P (.core (.rand 16)))
    (hpresence : ∀ p, Q (.store (.setPresence p)))
    (hlook : ∀ c, Route.healthz.CallsAs (fun _ => False) c → Q c) (u : Upgrade) :
    (Api.upgrade S u).Only P := by
  have haccept (device : String) : P (.accept device) := houter _ (by intro _ hc; cases hc)
  refine (h.program ((checkUpgrade_calls u).mono hlook).run).bind fun who => ?_
  cases who with
  | error e => trivial
  | ok who =>
      refine ⟨haccept _, fun accepted => ?_⟩
      cases accepted with
      | true => exact h.connection houter hnow hrand hpresence who.1 who.2
      | false => trivial

theorem Yields.catchup (h : Yields S Q P) (houter : ∀ c, Outer c → P c)
    (hqueue : ∀ user a, Q (.store (.enqueueAttention user a))) : (Api.catchup S).Only P := by
  have htake : P .takeCatchup := houter _ (by intro _ hc; cases hc)
  have hstore (user : String) : (toSrv S (perform
      (.store (.enqueueAttention user ⟨"", "", "catchup"⟩)))).Only P :=
    h.program (Prog.only_perform (hqueue user _))
  exact ⟨htake, fun user => (hstore user).bind fun _ => trivial⟩

end Tasks

end Calcar.Api
