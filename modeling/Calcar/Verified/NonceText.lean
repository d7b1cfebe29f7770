import Calcar.Lib.Bits
import Calcar.Ws.Ids

/-!
# The text of a nonce

`base64RawURL` shifts every byte into one machine word and never masks it.  The
word's high bits go wrong after eight bytes and are never read: what is pending
is in its low bits, fewer than six of them between two bytes.

## Main results

* `emitDigits_groups`, `rawURLLoop_groups` — the loops write the pending bits
  and the bits of what follows.
* `base64_raw_url` — the text is that of RFC 4648 for every byte string.
-/

namespace Calcar.Ws

open Lib

/-- RFC 4648's base64url without padding: the bits of the bytes in groups of six,
the last one filled up with zeros, each a digit of the URL alphabet. -/
def rfcBase64URL (b : Bytes) : String :=
  String.ofList ((groups 6 (b.flatMap fun c => lowBits c.toNat 8)).map (Text.base64Digit true))

example : rfcBase64URL [0x66, 0x6f, 0x6f, 0x62, 0x61] = "Zm9vYmE" := by decide

/-- The bits of a word that are not written yet. -/
def pending (acc : UInt64) (bits : Nat) : List Bool := lowBits acc.toNat bits

/-- A byte is shifted in behind the pending bits. -/
theorem pending_shift (acc : UInt64) (c : UInt8) {bits : Nat} (h : bits + 8 ≤ 64) :
    pending (acc <<< 8 ||| UInt64.ofNat c.toNat) (bits + 8) =
      pending acc bits ++ lowBits c.toNat 8 := by
  have hc : c.toNat < 2 ^ 8 := UInt8.toNat_lt c
  have hword : (acc <<< 8 ||| UInt64.ofNat c.toNat).toNat =
      acc.toNat <<< 8 % 2 ^ 64 ||| c.toNat := by
    rw [UInt64.toNat_or, UInt64.toNat_shiftLeft, UInt64.toNat_ofNat',
      Nat.mod_eq_of_lt (hc.trans (by decide))]
    rfl
  have htop : ∀ j, c.toNat.testBit (8 + j) = false := fun j =>
    Nat.testBit_lt_two_pow (hc.trans_le (Nat.pow_le_pow_right (by decide) (by omega)))
  unfold pending
  rw [lowBits_add, hword]
  congr 1
  · apply lowBits_congr
    intro j hj
    rw [Nat.testBit_shiftRight, Nat.testBit_or, Nat.testBit_mod_two_pow, Nat.testBit_shiftLeft,
      htop j]
    simp
    omega
  · apply lowBits_congr
    intro j hj
    rw [Nat.testBit_or, Nat.testBit_mod_two_pow, Nat.testBit_shiftLeft]
    have hlow : decide (j ≥ 8) = false := by simpa using hj
    simp [hlow]

theorem and_low (x : UInt64) : (x &&& 0x3F).toNat = x.toNat % 2 ^ 6 := by
  rw [UInt64.toNat_and]
  exact Nat.and_two_pow_sub_one_eq_mod x.toNat 6

/-- The digit that is written is the first six pending bits. -/
theorem digit_first (acc : UInt64) {bits : Nat} (hw : bits < 64) :
    ((acc >>> UInt64.ofNat (bits - 6)) &&& 0x3F).toNat =
      ofBits (lowBits (acc.toNat >>> (bits - 6)) 6) := by
  have hcount : (UInt64.ofNat (bits - 6)).toNat % 64 = bits - 6 := by
    rw [UInt64.toNat_ofNat']
    omega
  rw [and_low, UInt64.toNat_shiftRight, hcount, ofBits_lowBits]

/-- The digit that ends the text is the pending bits, filled up. -/
theorem digit_last (acc : UInt64) {bits : Nat} (h : bits < 6) :
    ((acc <<< UInt64.ofNat (6 - bits)) &&& 0x3F).toNat =
      ofBits (pending acc bits) * 2 ^ (6 - bits) := by
  have hcount : (UInt64.ofNat (6 - bits)).toNat % 64 = 6 - bits := by
    rw [UInt64.toNat_ofNat']
    omega
  have hsix : 2 ^ 6 = 2 ^ bits * 2 ^ (6 - bits) := by
    rw [← Nat.pow_add, Nat.add_sub_cancel' h.le]
  rw [and_low, UInt64.toNat_shiftLeft, hcount, pending, ofBits_lowBits,
    Nat.mod_mod_of_dvd _ (by decide : 2 ^ 6 ∣ 2 ^ 64), Nat.shiftLeft_eq, hsix,
    Nat.mul_mod_mul_right]

/-- **The inner loop** writes the full groups of the pending bits and leaves the
rest of them pending. -/
theorem emitDigits_groups (acc : UInt64) {fuel bits : Nat} (hfuel : bits ≤ fuel) (hw : bits < 64) :
    (emitDigits acc fuel bits).2 < 6 ∧ ∀ rest,
      (emitDigits acc fuel bits).1 ++
          (groups 6 (pending acc (emitDigits acc fuel bits).2 ++ rest)).map
            (Text.base64Digit true) =
        (groups 6 (pending acc bits ++ rest)).map (Text.base64Digit true) := by
  induction fuel generalizing bits with
  | zero =>
      have hbits : bits = 0 := Nat.le_zero.mp hfuel
      rw [hbits]
      exact ⟨Nat.zero_lt_succ 5, fun rest => rfl⟩
  | succ fuel ih =>
      by_cases hsix : 6 ≤ bits
      · obtain ⟨hleft, hrest⟩ := ih (show bits - 6 ≤ fuel by omega) (by omega)
        rw [emitDigits, if_pos hsix]
        refine ⟨hleft, fun rest => ?_⟩
        have hsplit : pending acc bits =
            lowBits (acc.toNat >>> (bits - 6)) 6 ++ pending acc (bits - 6) := by
          have hcut := lowBits_add acc.toNat 6 (bits - 6)
          rw [Nat.add_sub_cancel' hsix] at hcut
          exact hcut
        rw [hsplit, List.append_assoc, groups_append (by decide) (length_lowBits _ _), List.map_cons,
          ← hrest rest, ← digit_first acc hw]
        rfl
      · rw [emitDigits, if_neg hsix]
        exact ⟨by omega, fun rest => rfl⟩

theorem rawURLLoop_cons (c : UInt8) (b : Bytes) (acc : UInt64) (bits : Nat) :
    rawURLLoop (c :: b) acc bits =
      (emitDigits (acc <<< 8 ||| UInt64.ofNat c.toNat) (bits + 8) (bits + 8)).1 ++
        rawURLLoop b (acc <<< 8 ||| UInt64.ofNat c.toNat)
          (emitDigits (acc <<< 8 ||| UInt64.ofNat c.toNat) (bits + 8) (bits + 8)).2 := rfl

/-- **The outer loop** writes the pending bits and those of the bytes. -/
theorem rawURLLoop_groups (b : Bytes) (acc : UInt64) {bits : Nat} (h : bits < 6) :
    rawURLLoop b acc bits =
      (groups 6 (pending acc bits ++ b.flatMap fun c => lowBits c.toNat 8)).map
        (Text.base64Digit true) := by
  induction b generalizing acc bits with
  | nil =>
      rw [rawURLLoop, List.flatMap_nil, List.append_nil]
      by_cases hbits : 0 < bits
      · have hlen : (pending acc bits).length = bits := length_lowBits _ _
        have hnil : pending acc bits ≠ [] := by
          intro hempty
          rw [hempty] at hlen
          exact absurd hlen.symm hbits.ne'
        rw [if_pos hbits, digit_last acc h, groups_short hnil (hlen.trans_lt h), hlen]
        rfl
      · have hzero : bits = 0 := by omega
        rw [if_neg hbits, hzero]
        rfl
  | cons c b ih =>
      obtain ⟨hleft, hrest⟩ := emitDigits_groups (acc <<< 8 ||| UInt64.ofNat c.toNat)
        (Nat.le_refl (bits + 8)) (by omega)
      rw [rawURLLoop_cons, ih _ hleft, hrest, pending_shift acc c (by omega), List.flatMap_cons, List.append_assoc]

/-- **The text of a nonce is base64url**, however long the bytes are. -/
theorem base64_raw_url (b : Bytes) : base64RawURL b = rfcBase64URL b := by
  unfold base64RawURL rfcBase64URL
  rw [rawURLLoop_groups b 0 (by decide)]
  rfl

end Calcar.Ws
