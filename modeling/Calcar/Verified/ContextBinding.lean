import Calcar.Lib.Decimal
import Calcar.Lib.Segments
import Calcar.Verified.Signing

/-!
# The context of an approval

What `ContextHash` hashes is cut at its last four NULs: the display name may hold
NULs of its own, the fields behind it hold none.

## Main results

* `contextBytes_inj` — the bytes determine the fields.
* `context_binding` — and the phone hashes the same bytes.
-/

namespace Calcar.Trust

open Lib Verified

/-- What `ContextHash` hashes; a text of the source is any bytes. -/
def contextBytes (displayName fingerprint subjectDeviceId sessionId : Bytes)
    (requestedAtMillis : Int) : Bytes :=
  displayName ++ [0] ++ fingerprint ++ [0] ++ subjectDeviceId ++ [0] ++ sessionId ++ [0] ++
    utf8 (toString requestedAtMillis)

theorem contextPreimage_bytes (displayName fingerprint subjectDeviceId sessionId : String)
    (requestedAtMillis : Int) :
    contextPreimage displayName fingerprint subjectDeviceId sessionId requestedAtMillis =
      contextBytes (utf8 displayName) (utf8 fingerprint) (utf8 subjectDeviceId) (utf8 sessionId)
        requestedAtMillis := rfl

/-- A number in decimal holds no NUL. -/
theorem int_no_nul (n : Int) : (0 : UInt8) ∉ utf8 (toString n) := by
  intro hmem
  rw [← String.ofList_toList (s := toString n), utf8_ofList] at hmem
  obtain ⟨c, hc, hbyte⟩ := List.mem_flatMap.mp hmem
  have hchar : 0 < c.toNat ∧ c.toNat < 128 := by
    obtain rfl | hdigit := int_text_chars hc
    · decide
    · simp only [Char.isDigit, Bool.and_eq_true, decide_eq_true_eq, ge_iff_le,
        UInt32.le_iff_toNat_le] at hdigit
      have hlow : 48 ≤ c.toNat := hdigit.1
      have hhigh : c.toNat ≤ 57 := hdigit.2
      omega
  rw [Utf8.utf8_ascii hchar.2, List.mem_singleton] at hbyte
  have hnat := congrArg UInt8.toNat hbyte
  rw [UInt8.toNat_ofNat', Nat.mod_eq_of_lt (by omega)] at hnat
  exact absurd hnat.symm (Nat.ne_of_gt hchar.1)

/-- **The bytes determine the fields.**  Cut at the last NUL, four times. -/
theorem contextBytes_inj {name name' fp fp' device device' session session' : Bytes}
    {t t' : Int} (hfp : 0 ∉ fp) (hfp' : 0 ∉ fp') (hdevice : 0 ∉ device) (hdevice' : 0 ∉ device')
    (hsession : 0 ∉ session) (hsession' : 0 ∉ session')
    (h : contextBytes name fp device session t = contextBytes name' fp' device' session' t') :
    name = name' ∧ fp = fp' ∧ device = device' ∧ session = session' ∧ t = t' := by
  have hcut : ∀ {a a' b b' : Bytes}, (0 : UInt8) ∉ b → (0 : UInt8) ∉ b' →
      a ++ [0] ++ b = a' ++ [0] ++ b' → a = a' ∧ b = b' := by
    intro a a' b b' hb hb' heq
    rw [List.append_assoc, List.append_assoc] at heq
    exact append_cons_cancel hb hb' heq
  obtain ⟨hbefore, htime⟩ := hcut (int_no_nul t) (int_no_nul t') h
  obtain ⟨hbefore, hid⟩ := hcut hsession hsession' hbefore
  obtain ⟨hbefore, hdev⟩ := hcut hdevice hdevice' hbefore
  obtain ⟨hname, hprint⟩ := hcut hfp hfp' hbefore
  exact ⟨hname, hprint, hdev, hid, int_text_inj (utf8_inj htime)⟩

/-- The phone joins the same bytes. -/
theorem joinFields_bytes (displayName fingerprint subjectDeviceId sessionId : String) (t : Int) :
    Phone.joinFields [displayName, fingerprint, subjectDeviceId, sessionId, toString t] =
      contextBytes (utf8 displayName) (utf8 fingerprint) (utf8 subjectDeviceId) (utf8 sessionId)
        t := by
  simp [Phone.joinFields, contextBytes]

/-- **Context binding.**  What is hashed determines the display name, of any bytes, and the
fields behind it, which hold no NUL; and backend and phone hash the same bytes. -/
theorem context_binding :
    (∀ name name' fp fp' device device' session session' t t',
      0 ∉ fp → 0 ∉ fp' → 0 ∉ device → 0 ∉ device' → 0 ∉ session → 0 ∉ session' →
      contextBytes name fp device session t = contextBytes name' fp' device' session' t' →
      name = name' ∧ fp = fp' ∧ device = device' ∧ session = session' ∧ t = t') ∧
    (∀ (C : Crypto) (name fp device session : String) (t : Int),
      contextHash C name fp device session t =
          C.sha256 (contextBytes (utf8 name) (utf8 fp) (utf8 device) (utf8 session) t) ∧
        Phone.pairingContextHash C name fp device session t =
          C.sha256 (contextBytes (utf8 name) (utf8 fp) (utf8 device) (utf8 session) t)) ∧
    (∀ (name fp device session : String) (t : Int),
      Phone.joinFields [name, fp, device, session, toString t] =
        contextPreimage name fp device session t) := by
  refine ⟨fun name name' fp fp' device device' session session' t t' h₁ h₂ h₃ h₄ h₅ h₆ h =>
      contextBytes_inj h₁ h₂ h₃ h₄ h₅ h₆ h,
    fun C name fp device session t => ⟨?_, ?_⟩, fun name fp device session t => ?_⟩
  · rw [contextHash, contextPreimage_bytes]
  · rw [Phone.pairingContextHash, joinFields_bytes]
  · rw [joinFields_bytes, contextPreimage_bytes]

/-- A NUL in the display name is not taken for the end of it. -/
theorem context_binding_nul :
    contextBytes [65, 0, 66] [67] [68] [69] (-5) ≠ contextBytes [65] [66] [67] [68] 5 := fun h =>
  absurd (context_binding.1 [65, 0, 66] [65] [67] [66] [68] [67] [69] [68] (-5) 5 (by decide)
    (by decide) (by decide) (by decide) (by decide) (by decide) h).1 (by decide)

end Calcar.Trust
