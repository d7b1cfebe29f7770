import Calcar.Phone.OwnerSetup

/-!
# What a setup that fails leaves behind

The `catch` of `establishOwner` deletes the key and nothing else.  What the
phone is left with is followed through the calls: up to the answer of `verify`
only the key is written, then the client, then the four entries of the session.

## Main results

* `establish_refused`, `establish_answered` — the `try` block before and after
  `verify` is answered.
* `putAll_same` — when a run of writes leaves the store as it was.
* `setup_restores` — a setup that returns false leaves the phone as it was if
  and only if it wrote nothing new.
-/

namespace Calcar.Phone

/-! ## Running -/

/-- What code ends with, and the phone it leaves. -/
def App.on {α : Type} (x : App α) (phone : Handset) : Except Unit α × Handset :=
  StateT.run (ExceptT.run x) phone

section Running

variable {α β : Type} {phone phone' : Handset}

theorem on_pure (a : α) : App.on (pure a) phone = (.ok a, phone) := rfl

theorem on_throw : App.on (throw () : App α) phone = (.error (), phone) := rfl

theorem on_bind {x : App α} {a : α} {f : α → App β} (h : x.on phone = (.ok a, phone')) :
    App.on (x >>= f) phone = (f a).on phone' := by
  unfold App.on at h ⊢
  rw [ExceptT.run_bind, StateT.run_bind, h]
  rfl

theorem on_bind_error {x : App α} {f : α → App β} (h : x.on phone = (.error (), phone')) :
    App.on (x >>= f) phone = (.error (), phone') := by
  unfold App.on at h ⊢
  rw [ExceptT.run_bind, StateT.run_bind, h]
  rfl

theorem on_catch {x : App α} {a : α} {f : Unit → App α} (h : x.on phone = (.ok a, phone')) :
    App.on (tryCatch x f) phone = (.ok a, phone') := by
  unfold App.on at h ⊢
  rw [ExceptT.run_tryCatch, StateT.run_bind, h]
  rfl

theorem on_catch_error {x : App α} {f : Unit → App α} (h : x.on phone = (.error (), phone')) :
    App.on (tryCatch x f) phone = (f ()).on phone' := by
  unfold App.on at h ⊢
  rw [ExceptT.run_tryCatch, StateT.run_bind, h]
  rfl

theorem settle_done (change : Handset → Handset) :
    (CallFate.done.settle change).on phone = (.ok (), change phone) := rfl

theorem settle_lost (change : Handset → Handset) :
    (CallFate.lost.settle change).on phone = (.error (), phone) := rfl

theorem settle_kept (change : Handset → Handset) :
    (CallFate.kept.settle change).on phone = (.error (), change phone) := rfl

end Running

/-! ## The key -/

/-- The store after `generate` wrote its seed. -/
def seeded (seed : Seed) (phone : Handset) : Handset :=
  setStored seedKey (some (String.ofList (Text.base64Encode seed.bytes))) phone

section Key

variable (E : Ed25519) (fates : Fates) (phone : Handset)

theorem computes_on {phone : Handset} {ok : Bool} (h : ok = true) :
    App.on (OwnerKeyService.computes ok) phone = (.ok (), phone) := by
  rw [OwnerKeyService.computes, if_pos h, on_pure]

theorem computes_throws {phone : Handset} {ok : Bool} (h : ¬ok = true) :
    App.on (OwnerKeyService.computes ok) phone = (.error (), phone) := by
  rw [OwnerKeyService.computes, if_neg h, on_throw]

/-- `generate` keeps the client and every entry but the seed, and where it
returns the seed is stored. -/
theorem generate_on (seed : Seed) (ok : Bool) :
    (OwnerKeyService.generate (fates.store true) seed ok).on phone =
      if ok = true then
        ((fates.writes seedKey).settle
          (setStored seedKey (some (String.ofList (Text.base64Encode seed.bytes))))).on phone
      else (.error (), phone) := by
  unfold OwnerKeyService.generate
  by_cases hok : ok = true
  · rw [if_pos hok, on_bind (computes_on hok)]
    rfl
  · rw [if_neg hok, on_bind_error (computes_throws hok)]

theorem read_on {fates : Fates} {phone : Handset} {key : String} :
    ((fates.store true).read key).on phone = (.ok (phone.stored key), phone) := rfl

theorem read_throws {fates : Fates} {phone : Handset} {key : String} :
    ((fates.store false).read key).on phone = (.error (), phone) := rfl

/-- A use of the key reads the seed, or throws and changes nothing. -/
theorem pair_on {phone : Handset} {seed : Seed} (hseed : phone = seeded seed phone) (fate : KeyFate) :
    (OwnerKeyService.pair (fates.store fate.reads) fate.computes).on phone =
      if fate.reads = true ∧ fate.computes = true then (.ok seed.bytes, phone)
      else (.error (), phone) := by
  have hstored : phone.stored seedKey = some (String.ofList (Text.base64Encode seed.bytes)) := by
    rw [hseed]
    exact setStored_self seedKey _ phone
  unfold OwnerKeyService.pair
  cases hreads : fate.reads with
  | false =>
      rw [on_bind_error read_throws, if_neg (by simp)]
  | true =>
      rw [on_bind read_on, hstored, OwnerKeyService.seedOf_encode]
      by_cases hcomputes : fate.computes = true
      · rw [if_pos ⟨rfl, hcomputes⟩]
        dsimp only
        rw [on_bind (computes_on hcomputes), on_pure]
      · rw [if_neg fun h => hcomputes h.2]
        exact on_bind_error (computes_throws hcomputes)

theorem seeded_seeded (seed : Seed) :
    seeded seed phone = seeded seed (seeded seed phone) := by
  unfold seeded setStored
  rw [Function.update_idem]

theorem publicKey_on (seed : Seed) (fate : KeyFate) :
    (OwnerKeyService.publicKey (fates.store fate.reads) E fate.computes).on (seeded seed phone) =
      if fate.reads = true ∧ fate.computes = true then
        (.ok (E.publicKey seed.bytes), seeded seed phone)
      else (.error (), seeded seed phone) := by
  have hpair := pair_on fates (seeded_seeded phone seed) fate
  unfold OwnerKeyService.publicKey
  by_cases h : fate.reads = true ∧ fate.computes = true
  · rw [if_pos h] at hpair ⊢
    rw [on_bind hpair, on_pure]
  · rw [if_neg h] at hpair ⊢
    rw [on_bind_error hpair]

theorem sign_on (seed : Seed) (fate : KeyFate) (message : Bytes) :
    (OwnerKeyService.sign (fates.store fate.reads) E fate.computes message).on
        (seeded seed phone) =
      if fate.reads = true ∧ fate.computes = true then
        (.ok (E.sign seed.bytes message), seeded seed phone)
      else (.error (), seeded seed phone) := by
  have hpair := pair_on fates (seeded_seeded phone seed) fate
  unfold OwnerKeyService.sign
  by_cases h : fate.reads = true ∧ fate.computes = true
  · rw [if_pos h] at hpair ⊢
    rw [on_bind hpair, on_pure]
  · rw [if_neg h] at hpair ⊢
    rw [on_bind_error hpair]

end Key

theorem answered_some {α : Type} {phone : Handset} (a : α) :
    (answered (some a)).on phone = (.ok a, phone) := rfl

theorem answered_none {α : Type} {phone : Handset} :
    (answered (none : Option α)).on phone = (.error (), phone) := rfl

/-! ## The `try` block -/

/-- What `bootstrapOwner` is answered, if the calls before it go through. -/
def Fates.registered (fates : Fates) (E : Ed25519) (displayName requestId : String) :
    Option BootstrapResult :=
  if fates.generates = true ∧ fates.writes seedKey = .done ∧
      fates.publicKey.reads = true ∧ fates.publicKey.computes = true then
    (fates.bootstrap {
      displayName := trim displayName
      pubkeyB64 := String.ofList (Text.base64Encode (E.publicKey fates.seed.bytes))
      deviceId := ""
      requestId := requestId }).map BootstrapResult.fromJson
  else none

/-- What `verify` is answered after that bootstrap, if the calls between go through. -/
def Fates.verified (fates : Fates) (E : Ed25519) (boot : BootstrapResult) :
    Option TokenResponse :=
  (fates.challenge boot.deviceId).bind fun ch =>
    if fates.sign.reads = true ∧ fates.sign.computes = true then
      (fates.verify {
        deviceId := boot.deviceId
        challenge := challengeOf ch
        signatureB64 := String.ofList (Text.base64Encode
          (E.sign fates.seed.bytes (Trust.utf8 (challengeOf ch)))) }).map TokenResponse.fromJson
    else none

/-- The client once it is logged in. -/
def loggedIn (boot : BootstrapResult) (pair : TokenResponse) : Client where
  token := some pair.accessToken
  refreshToken := pair.refreshToken
  userId := boot.userId
  deviceId := boot.deviceId

section Stages

variable (E : Ed25519) (fates : Fates) (displayName requestId : String) (phone : Handset)

/-- `register` writes the key and nothing else. -/
theorem register_on :
    ((register E fates displayName requestId).on phone = (.error (), phone) ∧
        fates.registered E displayName requestId = none) ∨
      ((register E fates displayName requestId).on phone = (.error (), seeded fates.seed phone) ∧
        fates.registered E displayName requestId = none) ∨
      ∃ boot, (register E fates displayName requestId).on phone =
          (.ok boot, seeded fates.seed phone) ∧
        fates.registered E displayName requestId = some boot := by
  have hgenerate := generate_on fates phone fates.seed fates.generates
  by_cases hgen : fates.generates = true
  · rw [if_pos hgen] at hgenerate
    have hpublic := publicKey_on E fates phone fates.seed fates.publicKey
    cases hwrite : fates.writes seedKey with
    | lost =>
        rw [hwrite, settle_lost] at hgenerate
        left
        exact ⟨on_bind_error hgenerate, by simp [Fates.registered, hwrite]⟩
    | kept =>
        rw [hwrite, settle_kept] at hgenerate
        right; left
        exact ⟨on_bind_error hgenerate, by simp [Fates.registered, hwrite]⟩
    | done =>
        rw [hwrite, settle_done] at hgenerate
        have hstart : (register E fates displayName requestId).on phone = _ := on_bind hgenerate
        right
        by_cases hpub : fates.publicKey.reads = true ∧ fates.publicKey.computes = true
        · rw [if_pos hpub] at hpublic
          have hkey := hstart.trans (on_bind hpublic)
          cases hboot : fates.bootstrap {
              displayName := trim displayName
              pubkeyB64 := String.ofList (Text.base64Encode (E.publicKey fates.seed.bytes))
              deviceId := ""
              requestId := requestId } with
          | none =>
              rw [hboot] at hkey
              left
              exact ⟨hkey.trans (on_bind_error answered_none), by
                simp [Fates.registered, hgen, hwrite, hpub, hboot]⟩
          | some body =>
              rw [hboot] at hkey
              right
              exact ⟨_, hkey.trans (on_bind (answered_some body)), by
                simp [Fates.registered, hgen, hwrite, hpub, hboot]⟩
        · rw [if_neg hpub] at hpublic
          left
          exact ⟨hstart.trans (on_bind_error hpublic), by
            rw [Fates.registered, if_neg fun h => hpub h.2.2]⟩
  · rw [if_neg hgen] at hgenerate
    left
    exact ⟨on_bind_error hgenerate, by simp [Fates.registered, hgen]⟩

/-- `logIn` writes nothing before `verify` is answered. -/
theorem logIn_on (boot : BootstrapResult) :
    ((logIn E fates boot).on (seeded fates.seed phone) = (.error (), seeded fates.seed phone) ∧
        fates.verified E boot = none) ∨
      ∃ pair, (logIn E fates boot).on (seeded fates.seed phone) =
          (.ok pair, { seeded fates.seed phone with client := phone.client.withTokens pair }) ∧
        fates.verified E boot = some pair := by
  have hsign := fun message => sign_on E fates phone fates.seed fates.sign message
  cases hch : fates.challenge boot.deviceId with
  | none =>
      left
      refine ⟨?_, by simp [Fates.verified, hch]⟩
      unfold logIn
      rw [hch]
      exact on_bind_error answered_none
  | some ch =>
      have hstart : (logIn E fates boot).on (seeded fates.seed phone) = _ :=
        on_bind (by rw [hch]; exact answered_some ch)
      have hsig := hsign (Trust.utf8 (challengeOf ch))
      by_cases hs : fates.sign.reads = true ∧ fates.sign.computes = true
      · rw [if_pos hs] at hsig
        have hposted := hstart.trans (on_bind hsig)
        cases hver : fates.verify {
            deviceId := boot.deviceId
            challenge := challengeOf ch
            signatureB64 := String.ofList (Text.base64Encode
              (E.sign fates.seed.bytes (Trust.utf8 (challengeOf ch)))) } with
        | none =>
            left
            refine ⟨hposted.trans ?_, by simp [Fates.verified, hch, hs, hver]⟩
            unfold CalcarApiClient.verify
            rw [hver]
            exact on_bind_error answered_none
        | some body =>
            right
            refine ⟨TokenResponse.fromJson body, hposted.trans ?_, by
              simp [Fates.verified, hch, hs, hver]⟩
            unfold CalcarApiClient.verify
            rw [hver, on_bind (answered_some body)]
            rfl
      · rw [if_neg hs] at hsig
        left
        refine ⟨hstart.trans (on_bind_error hsig), ?_⟩
        rw [Fates.verified, hch, Option.bind_some, if_neg hs]

end Stages

/-! ## Writes that change nothing -/

/-- A list of writes under their fates: the first that throws is the last. -/
def putAll (writes : String → CallFate) :
    List (String × String) → (String → Option String) → String → Option String
  | [], stored => stored
  | (key, value) :: rest, stored =>
      match writes key with
      | .done => putAll writes rest (Function.update stored key (some value))
      | .lost => stored
      | .kept => Function.update stored key (some value)

/-- Each of the writes that takes effect writes what is there. -/
def NothingNew (writes : String → CallFate) (stored : String → Option String) :
    List (String × String) → Prop
  | [] => True
  | (key, value) :: rest =>
      (writes key ≠ .lost → stored key = some value) ∧
        (writes key = .done → NothingNew writes stored rest)

section Writes

variable {writes : String → CallFate}

theorem putAll_other {entries : List (String × String)} {key : String}
    (h : key ∉ entries.map Prod.fst) (stored : String → Option String) :
    putAll writes entries stored key = stored key := by
  induction entries generalizing stored with
  | nil => rfl
  | cons entry rest ih =>
      obtain ⟨k, v⟩ := entry
      rw [List.map_cons, List.mem_cons, not_or] at h
      have hk : Function.update stored k (some v) key = stored key :=
        Function.update_of_ne h.1 (some v) stored
      unfold putAll
      cases writes k with
      | done => exact (ih h.2 _).trans hk
      | lost => rfl
      | kept => exact hk

/-- **A run of writes leaves the store as it was** if and only if each of them
that takes effect writes what is there. -/
theorem putAll_same {entries : List (String × String)} (hnodup : (entries.map Prod.fst).Nodup)
    (stored : String → Option String) :
    putAll writes entries stored = stored ↔ NothingNew writes stored entries := by
  induction entries generalizing stored with
  | nil => exact iff_of_true rfl trivial
  | cons entry rest ih =>
      obtain ⟨k, v⟩ := entry
      rw [List.map_cons, List.nodup_cons] at hnodup
      have hwritten : Function.update stored k (some v) = stored ↔ stored k = some v := by
        constructor
        · intro h
          rw [← h]
          exact Function.update_self k (some v) stored
        · intro h
          rw [← h]
          exact Function.update_eq_self k stored
      unfold putAll NothingNew
      cases hfate : writes k with
      | lost => simp
      | kept => simpa using hwritten
      | done =>
          simp only [ne_eq, reduceCtorEq, not_false_eq_true, forall_const]
          constructor
          · intro h
            have hk : stored k = some v := by
              rw [← h, putAll_other hnodup.1]
              exact Function.update_self k (some v) stored
            rw [hwritten.2 hk] at h
            exact ⟨hk, (ih hnodup.2 stored).1 h⟩
          · rintro ⟨hk, hrest⟩
            rw [hwritten.2 hk]
            exact (ih hnodup.2 stored).2 hrest

theorem nothingNew_congr {entries : List (String × String)} {stored stored' : String → Option String}
    (h : ∀ key ∈ entries.map Prod.fst, stored key = stored' key) :
    NothingNew writes stored entries ↔ NothingNew writes stored' entries := by
  induction entries with
  | nil => exact Iff.rfl
  | cons entry rest ih =>
      obtain ⟨k, v⟩ := entry
      rw [List.map_cons] at h
      unfold NothingNew
      rw [h k List.mem_cons_self, ih fun key hkey => h key (List.mem_cons_of_mem k hkey)]

end Writes

/-! ## The session -/

/-- The entries `save` writes, in its order. -/
def sessionEntries (session : OwnerSession) : List (String × String) :=
  [(SessionStore.deviceKey, session.deviceId), (SessionStore.userKey, session.userId),
    (SessionStore.tokenKey, session.token), (SessionStore.refreshKey, session.refreshToken)]

/-- One write of a list of writes, and those after it. -/
theorem write_on {fates : Fates} {phone : Handset} {key value : String}
    {rest : List (String × String)} {next : App Unit}
    (h : ∀ phone, ∃ r, next.on phone =
      (r, { phone with stored := putAll fates.writes rest phone.stored })) :
    ∃ r, App.on (do (fates.store true).write key value; next) phone =
      (r, { phone with stored := putAll fates.writes ((key, value) :: rest) phone.stored }) := by
  have hwrite : ((fates.store true).write key value).on phone =
      ((fates.writes key).settle (setStored key (some value))).on phone := rfl
  unfold putAll
  cases hfate : fates.writes key with
  | done =>
      rw [hfate, settle_done] at hwrite
      obtain ⟨r, hr⟩ := h (setStored key (some value) phone)
      exact ⟨r, (on_bind hwrite).trans hr⟩
  | lost =>
      rw [hfate, settle_lost] at hwrite
      exact ⟨_, on_bind_error hwrite⟩
  | kept =>
      rw [hfate, settle_kept] at hwrite
      exact ⟨_, on_bind_error hwrite⟩

theorem save_on (fates : Fates) (session : OwnerSession) (phone : Handset) :
    ∃ r, (SessionStore.save (fates.store true) session).on phone =
      (r, { phone with stored := putAll fates.writes (sessionEntries session) phone.stored }) := by
  have hlast (phone : Handset) : ∃ r,
      ((fates.store true).write SessionStore.refreshKey session.refreshToken).on phone =
        (r, { phone with
          stored := putAll fates.writes [(SessionStore.refreshKey, session.refreshToken)]
            phone.stored }) := by
    have hnone (phone : Handset) : ∃ r, App.on (pure () : App Unit) phone =
        (r, { phone with stored := putAll fates.writes [] phone.stored }) := ⟨.ok (), rfl⟩
    have hwrite := @write_on fates phone SessionStore.refreshKey session.refreshToken [] (pure ()) hnone
    rwa [bind_pure] at hwrite
  exact write_on fun phone => write_on fun phone => write_on hlast

/-- What `adopt` leaves: the client with its tokens and ids, and the entries of
the session as far as they were written. -/
theorem adopt_on (fates : Fates) (session : Bool) (boot : BootstrapResult) (pair : TokenResponse)
    (phone : Handset) :
    ∃ r, (adopt fates session boot pair).on
        { phone with client := phone.client.withTokens pair } =
      (r, {
        stored := putAll fates.writes
          (if pair.accessToken ≠ "" ∧ session = true then
            sessionEntries {
              deviceId := boot.deviceId
              userId := boot.userId
              token := pair.accessToken
              refreshToken := pair.refreshToken }
          else []) phone.stored
        client := loggedIn boot pair }) := by
  have hset : (adopt fates session boot pair).on
      { phone with client := phone.client.withTokens pair } =
      App.on (if pair.accessToken = "" then throw ()
        else if session = true then
          SessionStore.save (fates.store true) {
            deviceId := boot.deviceId
            userId := boot.userId
            token := pair.accessToken
            refreshToken := pair.refreshToken }
        else pure ()) { phone with client := loggedIn boot pair } := rfl
  rw [hset]
  by_cases htoken : pair.accessToken = ""
  · rw [if_pos htoken, if_neg fun h => h.1 htoken]
    exact ⟨_, rfl⟩
  · rw [if_neg htoken]
    by_cases hsession : session = true
    · rw [if_pos hsession, if_pos ⟨htoken, hsession⟩]
      exact save_on fates _ _
    · rw [if_neg hsession, if_neg fun h => hsession h.2]
      exact ⟨_, rfl⟩

/-! ## Setup -/

/-- The writes of the session that is saved after this login. -/
def savedEntries (session : Bool) (boot : BootstrapResult) (pair : TokenResponse) :
    List (String × String) :=
  if pair.accessToken ≠ "" ∧ session = true then
    sessionEntries {
      deviceId := boot.deviceId
      userId := boot.userId
      token := pair.accessToken
      refreshToken := pair.refreshToken }
  else []

theorem savedEntries_nodup (session : Bool) (boot : BootstrapResult) (pair : TokenResponse) :
    ((savedEntries session boot pair).map Prod.fst).Nodup := by
  unfold savedEntries
  split
  · simp only [sessionEntries, List.map_cons, List.map_nil]
    decide
  · exact List.nodup_nil

theorem seedKey_not_saved (session : Bool) (boot : BootstrapResult) (pair : TokenResponse) :
    seedKey ∉ (savedEntries session boot pair).map Prod.fst := by
  unfold savedEntries
  split
  · simp only [sessionEntries, List.map_cons, List.map_nil]
    decide
  · exact List.not_mem_nil

section Setup

variable (E : Ed25519) (fates : Fates) (displayName requestId : String) (session : Bool)
  (phone : Handset)

/-- What the `try` block leaves where it throws: at most the key, until `verify`
is answered. -/
theorem establish_on :
    ((establish E fates displayName requestId session).on phone = (.error (), phone) ∧
        (fates.registered E displayName requestId).bind (fates.verified E) = none) ∨
      ((establish E fates displayName requestId session).on phone =
          (.error (), seeded fates.seed phone) ∧
        (fates.registered E displayName requestId).bind (fates.verified E) = none) ∨
      ∃ boot pair r, fates.registered E displayName requestId = some boot ∧
        fates.verified E boot = some pair ∧
        (establish E fates displayName requestId session).on phone = (r, {
          stored := putAll fates.writes (savedEntries session boot pair)
            (seeded fates.seed phone).stored
          client := loggedIn boot pair }) := by
  obtain ⟨hrun, hnone⟩ | ⟨hrun, hnone⟩ | ⟨boot, hrun, hboot⟩ :=
    register_on E fates displayName requestId phone
  · left
    exact ⟨on_bind_error hrun, by rw [hnone, Option.bind_none]⟩
  · right; left
    exact ⟨on_bind_error hrun, by rw [hnone, Option.bind_none]⟩
  · have hstart : (establish E fates displayName requestId session).on phone = _ := on_bind hrun
    right
    obtain ⟨hlogin, hnone⟩ | ⟨pair, hlogin, hpair⟩ := logIn_on E fates phone boot
    · left
      exact ⟨hstart.trans (on_bind_error hlogin), by rw [hboot, Option.bind_some, hnone]⟩
    · right
      obtain ⟨r, hadopt⟩ := adopt_on fates session boot pair (seeded fates.seed phone)
      exact ⟨boot, pair, r, hboot, hpair, (hstart.trans (on_bind hlogin)).trans hadopt⟩

/-- The key gone again, the phone is as it was where it had none and the rest is. -/
theorem delete_same (phone left : Handset) :
    setStored seedKey none left = phone ↔
      phone.stored seedKey = none ∧ (∀ key ≠ seedKey, left.stored key = phone.stored key) ∧
        left.client = phone.client := by
  constructor
  · intro h
    rw [← h]
    exact ⟨setStored_self seedKey none left,
      fun key hkey => (setStored_other hkey none left).symm, rfl⟩
  · rintro ⟨hnone, hother, hclient⟩
    refine Handset.ext ?_ hclient
    funext key
    by_cases hkey : key = seedKey
    · rw [hkey, hnone]
      exact setStored_self seedKey none left
    · exact (setStored_other hkey none left).trans (hother key hkey)

/-- The entries of the session are as they were if and only if nothing new was
written to them; the key is none of them. -/
theorem saved_same (boot : BootstrapResult) (pair : TokenResponse) :
    (∀ key ≠ seedKey, putAll fates.writes (savedEntries session boot pair)
        (seeded fates.seed phone).stored key = phone.stored key) ↔
      NothingNew fates.writes phone.stored (savedEntries session boot pair) := by
  have hkey := seedKey_not_saved session boot pair
  have hseeded : ∀ key ≠ seedKey, (seeded fates.seed phone).stored key = phone.stored key :=
    fun key hne => setStored_other hne _ phone
  have hsame : NothingNew fates.writes (seeded fates.seed phone).stored
        (savedEntries session boot pair) ↔
      NothingNew fates.writes phone.stored (savedEntries session boot pair) :=
    nothingNew_congr fun key hmem => hseeded key fun h => hkey (h ▸ hmem)
  rw [← hsame, ← putAll_same (savedEntries_nodup session boot pair)]
  constructor
  · intro hother
    funext key
    by_cases hseed : key = seedKey
    · rw [hseed]
      exact putAll_other hkey _
    · rw [hother key hseed, hseeded key hseed]
  · intro h key hne
    rw [h, hseeded key hne]

/-- The `catch` block, where it returns. -/
theorem deleted_on {left phone' : Handset} {r : Bool}
    (h : App.on (do OwnerKeyService.deleteKey (fates.store true); return false) left =
      (.ok r, phone')) : phone' = setStored seedKey none left := by
  have hdelete : (OwnerKeyService.deleteKey (fates.store true)).on left =
      ((fates.deletes seedKey).settle (setStored seedKey none)).on left := rfl
  cases hfate : fates.deletes seedKey with
  | done =>
      rw [hfate, settle_done] at hdelete
      rw [on_bind hdelete] at h
      cases h
      rfl
  | lost =>
      rw [hfate, settle_lost] at hdelete
      rw [on_bind_error hdelete] at h
      cases h
  | kept =>
      rw [hfate, settle_kept] at hdelete
      rw [on_bind_error hdelete] at h
      cases h

/-- A `try` block that throws leaves its phone to the `catch` block; one that
returns does not return false. -/
theorem caught_on {x : App Unit} {r : Except Unit Unit} {left phone' : Handset}
    (hx : x.on phone = (r, left))
    (h : App.on (tryCatch (do x; return true) fun _ => do
      OwnerKeyService.deleteKey (fates.store true); return false) phone = (.ok false, phone')) :
    phone' = setStored seedKey none left := by
  cases r with
  | ok u =>
      rw [on_catch ((on_bind hx).trans (on_pure true))] at h
      cases h
  | error e =>
      rw [on_catch_error (on_bind_error hx)] at h
      exact deleted_on fates h

/-- **Setup that returns false.** The phone is as it was if and only if the name
is blank, or the unlock is refused, or no key was stored before and what was
written after `verify` was answered, if it was, is what the phone held. -/
theorem setup_restores {phone' : Handset}
    (hfalse : (establishOwner E fates displayName requestId session).on phone =
      (.ok false, phone')) :
    phone' = phone ↔
      trim displayName = "" ∨ fates.gate ≠ some .unlocked ∨
        (phone.stored seedKey = none ∧
          ∀ boot pair, fates.registered E displayName requestId = some boot →
            fates.verified E boot = some pair →
            phone.client = loggedIn boot pair ∧
              NothingNew fates.writes phone.stored (savedEntries session boot pair)) := by
  unfold establishOwner at hfalse
  by_cases hblank : trim displayName = ""
  · rw [if_pos hblank] at hfalse
    cases hfalse
    exact iff_of_true rfl (.inl hblank)
  · rw [if_neg hblank] at hfalse
    cases hgate : fates.gate with
    | none =>
        rw [hgate, on_bind_error answered_none] at hfalse
        cases hfalse
    | some auth =>
        rw [hgate, on_bind (answered_some auth)] at hfalse
        by_cases hauth : auth ≠ .unlocked
        · rw [if_pos hauth] at hfalse
          cases hfalse
          exact iff_of_true rfl (.inr (.inl fun h => hauth (Option.some.inj h)))
        · rw [if_neg hauth] at hfalse
          have hopen : ¬(some auth ≠ some LocalAuthResult.unlocked) := by simpa using hauth
          have hseeded : ∀ key ≠ seedKey, (seeded fates.seed phone).stored key =
              phone.stored key := fun key hkey => setStored_other hkey _ phone
          simp only [hblank, hopen, false_or]
          obtain ⟨hrun, hnone⟩ | ⟨hrun, hnone⟩ | ⟨boot, pair, r, hboot, hpair, hrun⟩ :=
            establish_on E fates displayName requestId session phone
          · rw [caught_on fates phone hrun hfalse, delete_same]
            refine and_congr_right fun _ => iff_of_true ⟨fun _ _ => rfl, rfl⟩ ?_
            intro boot pair hboot hpair
            rw [hboot, Option.bind_some, hpair] at hnone
            cases hnone
          · rw [caught_on fates phone hrun hfalse, delete_same]
            refine and_congr_right fun _ => iff_of_true ⟨hseeded, rfl⟩ ?_
            intro boot pair hboot hpair
            rw [hboot, Option.bind_some, hpair] at hnone
            cases hnone
          · rw [caught_on fates phone hrun hfalse, delete_same]
            refine and_congr_right fun _ => ?_
            have hkept := saved_same fates session phone boot pair
            constructor
            · rintro ⟨hother, hclient⟩ boot' pair' hboot' hpair'
              obtain rfl : boot = boot' := Option.some.inj (hboot.symm.trans hboot')
              obtain rfl : pair = pair' := Option.some.inj (hpair.symm.trans hpair')
              exact ⟨hclient.symm, hkept.1 hother⟩
            · intro hall
              obtain ⟨hclient, hnew⟩ := hall boot pair hboot hpair
              exact ⟨hkept.2 hnew, hclient.symm⟩

end Setup

namespace HalfSaved

def keys : Ed25519 where
  publicKey seed := seed
  sign seed message := seed ++ message

/-- A first setup whose last write, the refresh token of the session, throws. -/
def fates : Fates where
  gate := some .unlocked
  seed := ⟨List.replicate 32 7, rfl⟩
  generates := true
  publicKey := ⟨true, true⟩
  bootstrap _ := some fun field =>
    if field = "user_id" then some "U-1" else if field = "device_id" then some "RD-1" else none
  challenge _ := some fun field => if field = "challenge" then some "nonce" else none
  sign := ⟨true, true⟩
  verify _ := some fun field =>
    if field = "access_token" then some "access" else
    if field = "refresh_token" then some "refresh" else none
  writes key := if key = SessionStore.refreshKey then .lost else .done
  deletes _ := .done

def phone : Handset where
  stored _ := none
  client := {}

def run : Except Unit Bool × Handset :=
  (establishOwner keys fates "Owner" "R-1" true).on phone

theorem run_false : run = (.ok false, run.2) := by
  have hrun : run.1.toOption = some false := by decide
  cases h : run.1 with
  | error e =>
      rw [h] at hrun
      cases hrun
  | ok r =>
      rw [h] at hrun
      cases hrun
      exact Prod.ext h rfl

end HalfSaved

theorem setup_restores_sample :
    HalfSaved.run.2 = HalfSaved.phone ↔
      trim "Owner" = "" ∨ HalfSaved.fates.gate ≠ some .unlocked ∨
        (HalfSaved.phone.stored seedKey = none ∧
          ∀ boot pair, HalfSaved.fates.registered HalfSaved.keys "Owner" "R-1" = some boot →
            HalfSaved.fates.verified HalfSaved.keys boot = some pair →
            HalfSaved.phone.client = loggedIn boot pair ∧
              NothingNew HalfSaved.fates.writes HalfSaved.phone.stored
                (savedEntries true boot pair)) :=
  setup_restores HalfSaved.keys HalfSaved.fates "Owner" "R-1" true HalfSaved.phone
    HalfSaved.run_false

/-- A first setup that fails at its last write returns false, and leaves the
phone logged in and most of the session stored. -/
theorem half_saved :
    ¬∀ (E : Ed25519) (fates : Fates) (displayName requestId : String) (session : Bool)
      (phone phone' : Handset),
      (establishOwner E fates displayName requestId session).on phone = (.ok false, phone') →
      phone' = phone := by
  intro h
  have hsame := h HalfSaved.keys HalfSaved.fates "Owner" "R-1" true HalfSaved.phone
    HalfSaved.run.2 HalfSaved.run_false
  have htoken : HalfSaved.run.2.client.token = some "access" := by decide
  rw [hsame] at htoken
  cases htoken

end Calcar.Phone
