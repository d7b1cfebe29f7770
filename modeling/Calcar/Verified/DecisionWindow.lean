import Calcar.Verified.GrantBinding

/-!
# The time of a decision

A decision may be as old as a session lives and no younger than the clock skew
allows.  The two sums behind the comparisons may wrap around, and a record is
refused whenever one does.

## Main results

* `decisionVerdict_ok` — when an approval passes.
* `verifiedRecord_times` — the handler goes on with such records only.
* `decision_window_iff` — when passing means that the decision was made within the
  skew and while the session was open.
* `old_decision_passes` — an approval that was tapped seven minutes ago.
-/

namespace Calcar.Api

open Trust

/-- The call of `VerifyAuthorization` in `handlePairingDecision`. -/
def decisionVerdict (S : Server) (me : Device) (sessionId : String) (sess : PairingSession)
    (record : AuthorizationRecord) (nowMillis : Int) : Except TrustError Unit :=
  verifyAuthorization S.crypto record me.pubKey sessionId sess.joinPubKey record.contextHash
    nowMillis pairingTTLMillis

/-- What is checked besides the time. -/
structure Attested (S : Server) (me : Device) (sessionId : String) (sess : PairingSession)
    (record : AuthorizationRecord) : Prop where
  owner : me.pubKey.length = publicKeySize
  size : record.ownerSignature.length = signatureSize
  signed : S.crypto.ed25519Verify me.pubKey (signingPayload record) record.ownerSignature = true
  session : sessionId ≠ "" ∧ record.sessionId = sessionId
  key : sess.joinPubKey.length = publicKeySize ∧ record.subjectPublicKey = sess.joinPubKey
  context : record.contextHash ≠ []

/-- The times that pass. -/
structure TimePasses (nowMillis decidedAtMillis : Int) : Prop where
  positive : 0 < decidedAtMillis
  fits : InInt64 (nowMillis + maxClockSkewMillis)
  skew : decidedAtMillis ≤ nowMillis + maxClockSkewMillis
  age : nowMillis - decidedAtMillis ≤ pairingTTLMillis

/-- The time window of the specification: five minutes around the clock, and the life of
the session. -/
structure InWindow (sess : PairingSession) (nowMillis decidedAtMillis : Int) : Prop where
  early : nowMillis - maxClockSkewMillis ≤ decidedAtMillis
  late : decidedAtMillis ≤ nowMillis + maxClockSkewMillis
  created : requestedAtProxy sess ≤ decidedAtMillis
  expires : decidedAtMillis ≤ Time.unixMilli sess.expiresAt

variable {S : Server} {me : Device} {sessionId : String} {sess : PairingSession}
  {record : AuthorizationRecord} {nowMillis : Int}

/-- A sum that wraps around is negative, so no positive time is below it. -/
theorem skew_iff (hnow : InInt64 nowMillis) {decided : Int} (hpos : 0 < decided) :
    ¬ wrap64 (nowMillis + maxClockSkewMillis) < decided ↔
      InInt64 (nowMillis + maxClockSkewMillis) ∧ decided ≤ nowMillis + maxClockSkewMillis := by
  obtain ⟨hlow, hhigh⟩ := hnow
  by_cases hfits : nowMillis + maxClockSkewMillis < 9223372036854775808
  · have hin : InInt64 (nowMillis + maxClockSkewMillis) := by
      refine ⟨?_, hfits⟩
      have hskew : 0 ≤ maxClockSkewMillis := by decide
      omega
    rw [wrap64_self hin]
    exact ⟨fun h => ⟨hin, by omega⟩, fun h => by omega⟩
  · have hskew : maxClockSkewMillis = 300000 := rfl
    have hwrap : wrap64 (nowMillis + maxClockSkewMillis) =
        nowMillis + maxClockSkewMillis - 18446744073709551616 := by
      unfold wrap64
      rw [← Int.sub_bmod_right]
      exact Int.bmod_eq_of_le (by omega) (by omega)
    rw [hwrap]
    exact ⟨fun h => by omega, fun h => absurd h.1.2 hfits⟩

/-- A difference does not wrap around where the sum passed. -/
theorem age_fits (hnow : InInt64 nowMillis) {decided : Int} (hpos : 0 < decided)
    (hskew : decided ≤ nowMillis + maxClockSkewMillis) : InInt64 (nowMillis - decided) := by
  have hvalue : maxClockSkewMillis = 300000 := rfl
  obtain ⟨hlow, hhigh⟩ := hnow
  exact ⟨by omega, by omega⟩

/-- **When an approval passes.** -/
theorem decisionVerdict_ok (hnow : InInt64 nowMillis) :
    decisionVerdict S me sessionId sess record nowMillis = .ok () ↔
      Attested S me sessionId sess record ∧ TimePasses nowMillis record.decidedAtMillis := by
  unfold decisionVerdict verifyAuthorization
  constructor
  · intro h
    split at h
    · cases h
    split at h
    · cases h
    split at h
    · cases h
    split at h
    · cases h
    split at h
    · cases h
    split at h
    · cases h
    split at h
    · cases h
    split at h
    · cases h
    split at h
    · cases h
    split at h
    · cases h
    rename_i howner hsize hsigned hsession hkey hcontext _ hpos hskew hage
    have hpos : 0 < record.decidedAtMillis := by omega
    obtain ⟨hfits, hskew⟩ := (skew_iff hnow hpos).mp hskew
    rw [wrap64_self (age_fits hnow hpos hskew)] at hage
    simp only [not_or, Decidable.not_not] at hsession hkey
    exact ⟨⟨by simpa using howner, by simpa using hsize, by simpa using hsigned, hsession,
      hkey, by simpa using hcontext⟩, ⟨hpos, hfits, hskew, by omega⟩⟩
  · rintro ⟨hrec, htime⟩
    have hskew := (skew_iff hnow htime.positive).mpr ⟨htime.fits, htime.skew⟩
    have hage := wrap64_self (age_fits hnow htime.positive htime.skew)
    have hcontext : record.contextHash.isEmpty = false := by simpa using hrec.context
    rw [if_neg (not_not.mpr hrec.owner), if_neg (not_not.mpr hrec.size), hrec.signed,
      if_neg (by simp), if_neg (not_or.mpr ⟨hrec.session.1, not_not.mpr hrec.session.2⟩),
      if_neg (not_or.mpr ⟨not_not.mpr hrec.key.1, not_not.mpr hrec.key.2⟩), hcontext,
      if_neg (by simp), if_neg (by simp), if_neg (Int.not_le.mpr htime.positive),
      if_neg hskew, hage, if_neg (Int.not_lt.mpr htime.age)]

/-- Where the handler goes on, the record has passed at its clock. -/
theorem verifiedRecord_times {ok : Oracle → Prop} {i : Nat} {w w' : World} {req : DecisionReq}
    {pub : Bytes} {subject : String} (hok : ∃ o, ok o)
    (h : HRuns S ok i (verifiedRecord S me sessionId req sess pub subject) w (.ok record) w')
    (hnow : InInt64 (Time.unixMilli w.clock)) :
    Attested S me sessionId sess record ∧
      TimePasses (Time.unixMilli w.clock) record.decidedAtMillis :=
  (decisionVerdict_ok hnow).mp (verifiedRecord_ok hok h).2.2

/-- **The time of a decision.**  Passing means that the decision lies in the window, and that
no sum has wrapped around, except where an attested record is more than five minutes old,
older than the session or later than its end. -/
theorem decision_window_iff (hnow : InInt64 nowMillis) :
    (decisionVerdict S me sessionId sess record nowMillis = .ok () →
      InWindow sess nowMillis record.decidedAtMillis ∧
        wrap64 (nowMillis + maxClockSkewMillis) = nowMillis + maxClockSkewMillis ∧
        wrap64 (nowMillis - record.decidedAtMillis) = nowMillis - record.decidedAtMillis) ↔
    ¬ (Attested S me sessionId sess record ∧ TimePasses nowMillis record.decidedAtMillis ∧
        (record.decidedAtMillis < nowMillis - maxClockSkewMillis ∨
          record.decidedAtMillis < requestedAtProxy sess ∨
          Time.unixMilli sess.expiresAt < record.decidedAtMillis)) := by
  rw [decisionVerdict_ok hnow]
  constructor
  · rintro h ⟨hrec, htime, hout⟩
    obtain ⟨hwindow, _⟩ := h ⟨hrec, htime⟩
    obtain hold | hbefore | hafter := hout
    · exact absurd hwindow.early (Int.not_le.mpr hold)
    · exact absurd hwindow.created (Int.not_le.mpr hbefore)
    · exact absurd hwindow.expires (Int.not_le.mpr hafter)
  · rintro h ⟨hrec, htime⟩
    have hin := not_or.mp fun hout => h ⟨hrec, htime, hout⟩
    obtain ⟨hcreated, hexpires⟩ := not_or.mp hin.2
    exact ⟨⟨Int.not_lt.mp hin.1, htime.skew, Int.not_lt.mp hcreated, Int.not_lt.mp hexpires⟩,
      wrap64_self htime.fits, wrap64_self (age_fits hnow htime.positive htime.skew)⟩

/-! ### An approval of seven minutes ago -/

/-- A session that opened at 0 and was joined by `computerKey`. -/
def Pairing.joinedSession : PairingSession where
  id := Sample.session
  userId := Sample.owner.userId
  createdBy := "PH-1"
  status := some .pending
  expiresAt := pairingTTL
  qrNonce := ""
  joinPubKey := Sample.computerKey

/-- The Owner taps at 1 ms and the record arrives at 420000 ms. -/
def Pairing.tapped : AuthorizationRecord :=
  { Sample.approval with ownerSignature := Sample.approvalSig }

theorem old_decision_passes :
    decisionVerdict Sample.server Sample.owner Sample.session Pairing.joinedSession Pairing.tapped
        420000 = .ok () ∧
      ¬ InWindow Pairing.joinedSession 420000 Pairing.tapped.decidedAtMillis := by
  refine ⟨by decide, fun h => ?_⟩
  exact absurd h.early (by decide)

/-- An approval that arrives when it was tapped. -/
theorem decision_window_now :
    InWindow Pairing.joinedSession 1 Pairing.tapped.decidedAtMillis :=
  ((decision_window_iff (by decide)).mpr (fun h => absurd h.2.2 (by decide))
    (show decisionVerdict Sample.server Sample.owner Sample.session Pairing.joinedSession
      Pairing.tapped 1 = .ok () by decide)).1

end Calcar.Api
