import Calcar.Api.Pairing
import Calcar.Lib.Wire
import Calcar.Phone.Signer

/-!
# What the phone signs is what the backend verifies

The phone writes the authorization record by hand; the backend lets its
protobuf library write the record it rebuilt.  Both write the same numbers and
fields of `Lib.Wire`, the phone because it does not stop before the last group,
the library because ten groups are enough.

## Main results

* `encode_fields` — the phone's bytes as a sequence of fields.
* `signingPayload_fields` — the backend's.
* `record_encoding` — equality on every record the approve flow can carry, and
  injectivity.
-/

namespace Calcar.Verified

open Lib.Wire
open Phone (RecordFields encodeAuthorizationRecord)

/-! ## Numbers -/

theorem low_bits (n : Nat) : n &&& 0x7F = n % 128 := Nat.and_two_pow_sub_one_eq_mod n 7

theorem with_high_bit {n : Nat} (h : n < 128) : n ||| 0x80 = n + 128 := by
  have hsum : 128 + n = 128 ||| n := Nat.two_pow_add_eq_or_of_lt (i := 7) h 1
  rw [Nat.or_comm]
  omega

/-- **The phone's loop writes a varint.** -/
theorem phone_varint (n : Nat) : Phone.varint n = varint n := by
  induction n using Nat.strongRecOn with
  | ind n ih =>
      rw [Phone.varint]
      by_cases hn : 0x80 ≤ n
      · have hshift : n >>> 7 = n / 128 := Nat.shiftRight_eq_div_pow n 7
        have hmod : n % 128 < 128 := Nat.mod_lt n (by decide)
        rw [if_pos hn, varint_large (by omega), hshift, low_bits, with_high_bit hmod,
          ih (n / 128) (by omega)]
      · rw [if_neg hn, varint_small (by omega)]

theorem trust_bounded (room n : Nat) : Trust.varint room n = bounded room n := by
  induction room generalizing n with
  | zero => rfl
  | succ room ih =>
      rw [Trust.varint, bounded]
      by_cases hn : n < 128
      · rw [if_pos hn, if_pos hn]
      · rw [if_neg hn, if_neg hn, ih]

/-- **Ten groups hold every `uint64`.** -/
theorem trust_varint {n : Nat} (h : n < 18446744073709551616) : Trust.varint 10 n = varint n := by
  rw [trust_bounded]
  exact bounded_eq (Nat.lt_of_lt_of_le h (by decide))

/-! ## Fields -/

theorem phone_field (number : Nat) (b : Bytes) (h : (number <<< 3) ||| 2 = number * 8 + 2) :
    Phone.field number b = delimited (number * 8 + 2) b := by
  unfold Phone.field delimited
  rw [phone_varint, phone_varint, h]

theorem trust_msgField {number : Nat} {b : Bytes} (hnumber : number < 16)
    (hb : b.length < 18446744073709551616) : Trust.msgField number b = delimited (number * 8 + 2) b := by
  unfold Trust.msgField delimited
  rw [trust_varint (by omega), trust_varint hb]

theorem trust_lenField {number : Nat} {b : Bytes} (hnumber : number < 16) (hne : b ≠ [])
    (hb : b.length < 18446744073709551616) : Trust.lenField number b = delimited (number * 8 + 2) b := by
  have hempty : ¬b.isEmpty = true := by simpa using hne
  unfold Trust.lenField
  rw [if_neg hempty]
  exact trust_msgField hnumber hb

theorem trust_intField {number : Nat} {n : Int} (hnumber : number < 16) (hpos : 0 < n)
    (hn : n < 9223372036854775808) :
    Trust.intField number n = varint (number * 8) ++ varint n.toNat := by
  have hmod : n % 18446744073709551616 = n := Int.emod_eq_of_lt (by omega) (by omega)
  unfold Trust.intField
  rw [if_neg (by omega), hmod, trust_varint (by omega), trust_varint (by omega)]

theorem varint_length (n : Nat) (h : n < 18446744073709551616) : (varint n).length ≤ 10 := by
  have hbound : ∀ room m, (bounded room m).length ≤ room := by
    intro room
    induction room with
    | zero => intro m; exact Nat.le_refl 0
    | succ room ih =>
        intro m
        rw [bounded]
        by_cases hm : m < 128
        · rw [if_pos hm]
          show 1 ≤ room + 1
          omega
        · rw [if_neg hm]
          have hrest := ih (m / 128)
          show (bounded room (m / 128)).length + 1 ≤ room + 1
          omega
  rw [← trust_varint h, trust_bounded]
  exact hbound 10 n

theorem utf8_inj {s t : String} (h : Trust.utf8 s = Trust.utf8 t) : s = t := by
  unfold Trust.utf8 at h
  have hdata := Array.toList_inj.mp h
  have hbytes : s.toUTF8 = t.toUTF8 := ByteArray.ext hdata
  rw [String.toUTF8_eq_toByteArray, String.toUTF8_eq_toByteArray] at hbytes
  exact String.toByteArray_inj.mp hbytes

theorem utf8_ne_nil {s : String} (h : s ≠ "") : Trust.utf8 s ≠ [] := by
  intro hnil
  have hempty : Trust.utf8 "" = [] := by decide
  exact h (utf8_inj (hnil.trans hempty.symm))

/-! ## Records -/

/-- The byte strings of a record's fields. -/
def fieldStrings (f : RecordFields) : List Bytes :=
  [Trust.utf8 f.authorizationId, Trust.utf8 f.sessionId, Trust.utf8 f.subjectDeviceId,
    f.subjectPublicKey, Trust.utf8 f.ownerDeviceId, f.contextHash, f.nonce]

/-- The field values the approve flow can carry.  The length of a list on the
phone is an `int`, as the decision time is. -/
structure Carried (f : RecordFields) : Prop where
  session : f.sessionId ≠ ""
  owner : f.ownerDeviceId ≠ ""
  subject : f.subjectDeviceId ≠ ""
  key : f.subjectPublicKey.length = 32
  context : f.contextHash ≠ []
  nonce : f.nonce ≠ []
  decided : 0 < f.decidedAtMillis ∧ f.decidedAtMillis < 9223372036854775808
  authorization : Text.trimSpace f.authorizationId = f.authorizationId
  lengths : ∀ b, b ∈ fieldStrings f → b.length < 9223372036854775808

/-- The fields of a record, one after another. -/
def recordBytes (f : RecordFields) : Bytes :=
  delimited 10 (Trust.utf8 f.authorizationId) ++
    (delimited 18 (Trust.utf8 f.sessionId) ++
      (delimited 26 (delimited 10 (Trust.utf8 f.subjectDeviceId)) ++
        (delimited 34 f.subjectPublicKey ++
          (delimited 42 (delimited 10 (Trust.utf8 f.ownerDeviceId)) ++
            (delimited 50 f.contextHash ++
              (varint 64 ++ (varint f.decidedAtMillis.toNat ++ (delimited 74 f.nonce ++ []))))))))

/-- **The phone writes the fields in order**, or refuses a blank id. -/
theorem encode_fields {f : RecordFields} (hf : Carried f) :
    encodeAuthorizationRecord f =
      if f.authorizationId = "" then .error "record string fields must all be non-empty"
      else .ok (recordBytes f) := by
  unfold encodeAuthorizationRecord
  by_cases hauth : f.authorizationId = ""
  · rw [if_pos (.inl hauth), if_pos hauth]
  · have hids : ¬(f.authorizationId = "" ∨ f.sessionId = "" ∨ f.subjectDeviceId = "" ∨
        f.ownerDeviceId = "") := by
      simp [hauth, hf.session, hf.subject, hf.owner]
    have hrest : ¬(f.contextHash = [] ∨ f.nonce = [] ∨ f.decidedAtMillis ≤ 0) := by
      have hpos := hf.decided.1
      simp [hf.context, hf.nonce]
      omega
    have hkey : ¬f.subjectPublicKey.length ≠ 32 := fun h => h hf.key
    rw [if_neg hids, if_neg hkey, if_neg hrest, if_neg hauth]
    simp only [recordBytes, phone_field _ _ (by decide : (1 <<< 3) ||| 2 = 1 * 8 + 2),
      phone_field _ _ (by decide : (2 <<< 3) ||| 2 = 2 * 8 + 2),
      phone_field _ _ (by decide : (3 <<< 3) ||| 2 = 3 * 8 + 2),
      phone_field _ _ (by decide : (4 <<< 3) ||| 2 = 4 * 8 + 2),
      phone_field _ _ (by decide : (5 <<< 3) ||| 2 = 5 * 8 + 2),
      phone_field _ _ (by decide : (6 <<< 3) ||| 2 = 6 * 8 + 2),
      phone_field _ _ (by decide : (9 <<< 3) ||| 2 = 9 * 8 + 2), phone_varint,
      List.append_assoc, List.append_nil]
    rfl

/-- The backend rebuilds the record from the decision request, the caller and
the session that it holds. -/
structure Rebuilt (S : Api.Server) (me : Device) (sess : PairingSession)
    (req : Api.DecisionReq) (f : RecordFields) : Prop where
  authorization : req.authorizationId = f.authorizationId
  owner : me.id = f.ownerDeviceId
  decided : req.decidedAtMillis = f.decidedAtMillis
  context : Trust.contextHash S.crypto sess.joinName sess.joinFingerprint f.subjectDeviceId
    f.sessionId (Api.requestedAtProxy sess) = f.contextHash

/-- The record it rebuilds. -/
def rebuiltRecord (S : Api.Server) (me : Device) (sess : PairingSession)
    (req : Api.DecisionReq) (f : RecordFields) (sig : Bytes) : Trust.AuthorizationRecord :=
  Api.authorizationRecord S me sess req f.sessionId f.subjectDeviceId f.subjectPublicKey sig
    f.nonce

theorem nested_length {b : Bytes} (h : b.length < 9223372036854775808) :
    (delimited 10 b).length < 18446744073709551616 := by
  have htag := varint_length 10 (by omega)
  have hlen := varint_length b.length (by omega)
  unfold delimited
  rw [List.length_append, List.length_append]
  omega

/-- **The backend's library writes the same fields.** -/
theorem signingPayload_fields {f : RecordFields} (hf : Carried f) (hauth : f.authorizationId ≠ "")
    {S : Api.Server} {me : Device} {sess : PairingSession} {req : Api.DecisionReq}
    (hr : Rebuilt S me sess req f) (sig : Bytes) :
    Trust.signingPayload (rebuiltRecord S me sess req f sig) = recordBytes f := by
  have hlt : ∀ b, b ∈ fieldStrings f → b.length < 18446744073709551616 := fun b hb => by
    have h := hf.lengths b hb
    omega
  have hid : Text.trimSpace req.authorizationId = f.authorizationId := by
    rw [hr.authorization, hf.authorization]
  have hkey : f.subjectPublicKey ≠ [] := by
    intro hnil
    have hlen := hf.key
    rw [hnil] at hlen
    cases hlen
  have h₁ : Trust.lenField 1 (Trust.utf8 f.authorizationId) =
      delimited 10 (Trust.utf8 f.authorizationId) :=
    trust_lenField (by omega) (utf8_ne_nil hauth) (hlt _ (by simp [fieldStrings]))
  have h₂ : Trust.lenField 2 (Trust.utf8 f.sessionId) = delimited 18 (Trust.utf8 f.sessionId) :=
    trust_lenField (by omega) (utf8_ne_nil hf.session) (hlt _ (by simp [fieldStrings]))
  have hsubject : Trust.lenField 1 (Trust.utf8 f.subjectDeviceId) =
      delimited 10 (Trust.utf8 f.subjectDeviceId) :=
    trust_lenField (by omega) (utf8_ne_nil hf.subject) (hlt _ (by simp [fieldStrings]))
  have hsubject' : Trust.msgField 3 (delimited 10 (Trust.utf8 f.subjectDeviceId)) =
      delimited 26 (delimited 10 (Trust.utf8 f.subjectDeviceId)) :=
    trust_msgField (by omega) (nested_length (hf.lengths _ (by simp [fieldStrings])))
  have h₄ : Trust.lenField 4 f.subjectPublicKey = delimited 34 f.subjectPublicKey :=
    trust_lenField (by omega) hkey (hlt _ (by simp [fieldStrings]))
  have howner : Trust.lenField 1 (Trust.utf8 f.ownerDeviceId) =
      delimited 10 (Trust.utf8 f.ownerDeviceId) :=
    trust_lenField (by omega) (utf8_ne_nil hf.owner) (hlt _ (by simp [fieldStrings]))
  have howner' : Trust.msgField 5 (delimited 10 (Trust.utf8 f.ownerDeviceId)) =
      delimited 42 (delimited 10 (Trust.utf8 f.ownerDeviceId)) :=
    trust_msgField (by omega) (nested_length (hf.lengths _ (by simp [fieldStrings])))
  have h₆ : Trust.lenField 6 f.contextHash = delimited 50 f.contextHash :=
    trust_lenField (by omega) hf.context (hlt _ (by simp [fieldStrings]))
  have h₇ : Trust.lenField 7 [] = [] := rfl
  have h₈ : Trust.intField 8 f.decidedAtMillis = varint 64 ++ varint f.decidedAtMillis.toNat :=
    trust_intField (by omega) hf.decided.1 hf.decided.2
  have h₉ : Trust.lenField 9 f.nonce = delimited 74 f.nonce :=
    trust_lenField (by omega) hf.nonce (hlt _ (by simp [fieldStrings]))
  simp only [Trust.signingPayload, Trust.marshal, rebuiltRecord, Api.authorizationRecord, hid,
    hr.owner, hr.decided, hr.context, h₁, h₂, hsubject, hsubject', h₄, howner, howner', h₆, h₇,
    h₈, h₉, recordBytes, List.append_assoc, List.append_nil]

/-- **The fields can be read back** from the bytes of a record. -/
theorem recordBytes_inj {f g : RecordFields} (hf : 0 < f.decidedAtMillis)
    (hg : 0 < g.decidedAtMillis) (h : recordBytes f = recordBytes g) : f = g := by
  unfold recordBytes at h
  have h₁ := delimited_append_inj h
  have h₂ := delimited_append_inj h₁.2
  have h₃ := delimited_append_inj h₂.2
  have hsubject := delimited_append_inj (x := []) (y := []) (by simpa using h₃.1)
  have h₄ := delimited_append_inj h₃.2
  have h₅ := delimited_append_inj h₄.2
  have howner := delimited_append_inj (x := []) (y := []) (by simpa using h₅.1)
  have h₆ := delimited_append_inj h₅.2
  have htag := varint_append_inj h₆.2
  have h₈ := varint_append_inj htag.2
  have h₉ := delimited_append_inj h₈.2
  have hdecided : f.decidedAtMillis = g.decidedAtMillis := by
    have hnat := h₈.1
    omega
  cases f
  cases g
  simp only [RecordFields.mk.injEq]
  exact ⟨utf8_inj h₁.1, utf8_inj h₂.1, utf8_inj hsubject.1, h₄.1, utf8_inj howner.1, h₆.1,
    hdecided, h₉.1⟩

/-- **The record encoding.**  On every record the approve flow can carry the
phone signs exactly the bytes that the backend verifies for the record it
rebuilds (and refuses a blank authorization id, as the backend does); and no two
records have the same bytes. -/
theorem record_encoding (f : RecordFields) (hf : Carried f) :
    (∀ S me sess req sig, Rebuilt S me sess req f →
      encodeAuthorizationRecord f =
        if f.authorizationId = "" then .error "record string fields must all be non-empty"
        else .ok (Trust.signingPayload (rebuiltRecord S me sess req f sig))) ∧
      ∀ g b, Carried g → encodeAuthorizationRecord f = .ok b →
        encodeAuthorizationRecord g = .ok b → f = g := by
  constructor
  · intro S me sess req sig hr
    rw [encode_fields hf]
    by_cases hauth : f.authorizationId = ""
    · rw [if_pos hauth, if_pos hauth]
    · rw [if_neg hauth, if_neg hauth, signingPayload_fields hf hauth hr]
  · intro g b hg hfb hgb
    rw [encode_fields hf] at hfb
    rw [encode_fields hg] at hgb
    by_cases hauth : f.authorizationId = ""
    · rw [if_pos hauth] at hfb
      cases hfb
    · by_cases hauth' : g.authorizationId = ""
      · rw [if_pos hauth'] at hgb
        cases hgb
      · rw [if_neg hauth] at hfb
        rw [if_neg hauth'] at hgb
        have hbytes : recordBytes f = recordBytes g := by
          rw [Except.ok.inj hfb, Except.ok.inj hgb]
        exact recordBytes_inj hf.decided.1 hg.decided.1 hbytes

/-! ### A sample record -/

/-- The hash of the sample's context, its digest written out. -/
def sampleDigest : Bytes :=
  [239, 3, 209, 106, 119, 233, 130, 60, 76, 114, 43, 173, 18, 30, 46, 2, 101, 222, 207, 118, 19,
    236, 72, 76, 53, 120, 23, 61, 0, 145, 125, 55]

def sampleServer : Api.Server where
  crypto := { sha256 := fun _ => sampleDigest, ed25519Verify := fun _ _ _ => true }

def sampleOwner : Device where
  id := "PH-1"
  userId := "user-1"
  role := .ownerPhone
  displayName := "phone"
  pubKey := List.replicate 32 1
  fingerprint := "FP"

def sampleSession : PairingSession where
  id := "sess-1"
  userId := "user-1"
  createdBy := "PH-1"
  status := some .pending
  expiresAt := 601 * Time.second
  qrNonce := "qr"
  joinPubKey := List.replicate 32 7
  joinFingerprint := "AB12 CD34"
  joinName := "Office-PC"

def sampleFields : RecordFields where
  authorizationId := "auth-1"
  sessionId := "sess-1"
  subjectDeviceId := "RD-WIN-0A1B2C3D"
  subjectPublicKey := List.replicate 32 7
  ownerDeviceId := "PH-1"
  contextHash := sampleDigest
  decidedAtMillis := 2000
  nonce := [1, 2, 3]

def sampleDecision : Api.DecisionReq := { authorizationId := "auth-1", decidedAtMillis := 2000 }

theorem record_encoding_sample :
    encodeAuthorizationRecord sampleFields =
      .ok (Trust.signingPayload
        (rebuiltRecord sampleServer sampleOwner sampleSession sampleDecision sampleFields [])) := by
  have hcarried : Carried sampleFields := by
    refine ⟨by decide, by decide, by decide, rfl, by decide, by decide, by decide, by decide, ?_⟩
    intro b hb
    have hlen : ∀ b, b ∈ fieldStrings sampleFields → b.length ≤ 32 := by decide
    have h := hlen b hb
    omega
  have h := (record_encoding sampleFields hcarried).1 sampleServer sampleOwner sampleSession
    sampleDecision [] ⟨rfl, rfl, rfl, rfl⟩
  rw [if_neg (by decide)] at h
  exact h

end Calcar.Verified
