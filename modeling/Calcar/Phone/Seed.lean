import Calcar.Phone.Session

/-!
# The Owner key of the phone

`OwnerKeyService` over the secure store.  The seed is stored as base64 text, so
what is read back is a seed only if decoding undoes encoding.

## Main results

* `base64Decode_encode` — decoding undoes encoding.
* `seedOf_encode` — a stored seed of 32 bytes is the seed that is read.
-/

namespace Calcar.Phone

/-! ## Base64 -/

/-- The URL digits of a base64 text replaced by the standard ones. -/
def standardDigits (s : List Char) : List Char :=
  s.map fun c => if c = '-' then '+' else if c = '_' then '/' else c

/-- `base64Decode` of `dart:convert`: either alphabet, padded, nothing skipped,
and no bits left over in the last digit. -/
def base64Decode (s : String) : Option Bytes :=
  let digits := standardDigits s.toList
  (Text.base64Decode false true (String.ofList digits)).filter fun b =>
    Text.base64Encode b = digits

/-- The digits of a text as numbers, the padding left out. -/
def base64Numbers : Bytes → List Nat
  | [] => []
  | [a] => [a.toNat / 4, a.toNat % 4 * 16]
  | [a, b] => [a.toNat / 4, a.toNat % 4 * 16 + b.toNat / 16, b.toNat % 16 * 4]
  | a :: b :: c :: rest =>
      a.toNat / 4 :: (a.toNat % 4 * 16 + b.toNat / 16) :: (b.toNat % 16 * 4 + c.toNat / 64) ::
        (c.toNat % 64) :: base64Numbers rest

/-- How many `=` end the text. -/
def padding (b : Bytes) : Nat := (3 - b.length % 3) % 3

theorem base64Encode_eq (b : Bytes) :
    Text.base64Encode b =
      (base64Numbers b).map (Text.base64Digit false) ++ List.replicate (padding b) '=' := by
  induction b using base64Numbers.induct with
  | case1 => rfl
  | case2 a => rfl
  | case3 a b => rfl
  | case4 a b c rest ih =>
      have hpad : padding (a :: b :: c :: rest) = padding rest := by
        simp only [padding, List.length_cons]
        omega
      rw [hpad, Text.base64Encode, base64Numbers, ih]
      rfl

theorem base64Numbers_lt (b : Bytes) : ∀ n ∈ base64Numbers b, n < 64 := by
  induction b using base64Numbers.induct with
  | case1 => simp [base64Numbers]
  | case2 a =>
      have ha := UInt8.toNat_lt a
      simp only [base64Numbers, List.mem_cons, List.not_mem_nil, or_false]
      omega
  | case3 a b =>
      have ha := UInt8.toNat_lt a
      have hb := UInt8.toNat_lt b
      simp only [base64Numbers, List.mem_cons, List.not_mem_nil, or_false]
      omega
  | case4 a b c rest ih =>
      have ha := UInt8.toNat_lt a
      have hb := UInt8.toNat_lt b
      have hc := UInt8.toNat_lt c
      simp only [base64Numbers, List.mem_cons]
      rintro n (rfl | rfl | rfl | rfl | hn)
      · omega
      · omega
      · omega
      · omega
      · exact ih n hn

theorem base64Numbers_length (b : Bytes) :
    (base64Numbers b).length + padding b = 4 * ((b.length + 2) / 3) := by
  induction b using base64Numbers.induct with
  | case1 => rfl
  | case2 a => simp [base64Numbers, padding]
  | case3 a b => simp [base64Numbers, padding]
  | case4 a b c rest ih =>
      simp only [padding, base64Numbers, List.length_cons] at ih ⊢
      omega

theorem ofNat_eq {n : Nat} {a : UInt8} (h : n = a.toNat) : UInt8.ofNat n = a := by
  rw [h, UInt8.ofNat_toNat]

theorem base64Groups_numbers (b : Bytes) : Text.base64Groups (base64Numbers b) = some b := by
  induction b using base64Numbers.induct with
  | case1 => rfl
  | case2 a =>
      have ha : a.toNat / 4 * 4 + a.toNat % 4 * 16 / 16 = a.toNat := by omega
      rw [base64Numbers, Text.base64Groups, ofNat_eq ha]
  | case3 a b =>
      have hb := UInt8.toNat_lt b
      have ha : a.toNat / 4 * 4 + (a.toNat % 4 * 16 + b.toNat / 16) / 16 = a.toNat := by omega
      have hb' : (a.toNat % 4 * 16 + b.toNat / 16) % 16 * 16 + b.toNat % 16 * 4 / 4 =
          b.toNat := by omega
      rw [base64Numbers, Text.base64Groups, ofNat_eq ha, ofNat_eq hb']
  | case4 a b c rest ih =>
      have hb := UInt8.toNat_lt b
      have hc := UInt8.toNat_lt c
      have ha : a.toNat / 4 * 4 + (a.toNat % 4 * 16 + b.toNat / 16) / 16 = a.toNat := by omega
      have hb' : (a.toNat % 4 * 16 + b.toNat / 16) % 16 * 16 +
          (b.toNat % 16 * 4 + c.toNat / 64) / 4 = b.toNat := by omega
      have hc' : (b.toNat % 16 * 4 + c.toNat / 64) % 4 * 64 + c.toNat % 64 = c.toNat := by omega
      rw [base64Numbers, Text.base64Groups, ih, ofNat_eq ha, ofNat_eq hb', ofNat_eq hc']
      rfl

/-- A digit is read as the number it was written for, and is none of the
characters that are skipped, that pad, or that the URL alphabet has instead. -/
theorem base64Digit_spec : ∀ n < 64,
    Text.base64Value false (Text.base64Digit false n) = some n ∧
      Text.base64Digit false n ≠ '=' ∧ Text.base64Digit false n ≠ '\n' ∧
      Text.base64Digit false n ≠ '\r' ∧ Text.base64Digit false n ≠ '-' ∧
      Text.base64Digit false n ≠ '_' := by
  decide

theorem mapM_digits (ns : List Nat) (h : ∀ n ∈ ns, n < 64) :
    (ns.map (Text.base64Digit false)).mapM (Text.base64Value false) = some ns := by
  induction ns with
  | nil => rfl
  | cons n ns ih =>
      have hn := (base64Digit_spec n (h n List.mem_cons_self)).1
      rw [List.map_cons, List.mapM_cons, hn, ih fun m hm => h m (List.mem_cons_of_mem n hm)]
      rfl

theorem mem_encode {b : Bytes} {c : Char} (h : c ∈ Text.base64Encode b) :
    c = '=' ∨ ∃ n < 64, c = Text.base64Digit false n := by
  rw [base64Encode_eq, List.mem_append, List.mem_map, List.mem_replicate] at h
  obtain ⟨n, hn, rfl⟩ | ⟨-, rfl⟩ := h
  · exact .inr ⟨n, base64Numbers_lt b n hn, rfl⟩
  · exact .inl rfl

theorem padding_encode (b : Bytes) :
    Text.base64Padding (Text.base64Encode b) =
      ((base64Numbers b).map (Text.base64Digit false), padding b) := by
  have hdigit : ∀ c ∈ ((base64Numbers b).map (Text.base64Digit false)).reverse, c ≠ '=' := by
    intro c hc
    rw [List.mem_reverse, List.mem_map] at hc
    obtain ⟨n, hn, rfl⟩ := hc
    exact (base64Digit_spec n (base64Numbers_lt b n hn)).2.1
  have hrest : ((Text.base64Encode b).reverse.dropWhile (· == '=')).reverse =
      (base64Numbers b).map (Text.base64Digit false) := by
    rw [base64Encode_eq, List.reverse_append, List.reverse_replicate,
      List.dropWhile_append_of_pos fun c hc => by simp [List.eq_of_mem_replicate hc]]
    have hkeep : (((base64Numbers b).map (Text.base64Digit false)).reverse).dropWhile
        (· == '=') = ((base64Numbers b).map (Text.base64Digit false)).reverse := by
      cases hlist : ((base64Numbers b).map (Text.base64Digit false)).reverse with
      | nil => rfl
      | cons c cs =>
          have hc := hdigit c (by rw [hlist]; exact List.mem_cons_self)
          rw [List.dropWhile_cons_of_neg (by simpa using hc)]
    rw [hkeep, List.reverse_reverse]
  have hlength : (Text.base64Encode b).length -
      ((base64Numbers b).map (Text.base64Digit false)).length = padding b := by
    rw [base64Encode_eq, List.length_append, List.length_replicate]
    omega
  unfold Text.base64Padding
  dsimp only
  rw [hrest, hlength]

/-- **Decoding undoes encoding.** -/
theorem base64Decode_encode (b : Bytes) :
    base64Decode (String.ofList (Text.base64Encode b)) = some b := by
  have hstandard : standardDigits (Text.base64Encode b) = Text.base64Encode b := by
    unfold standardDigits
    refine (List.map_congr_left fun c hc => ?_).trans (List.map_id _)
    obtain rfl | ⟨n, hn, rfl⟩ := mem_encode hc
    · rfl
    · have hspec := base64Digit_spec n hn
      rw [if_neg hspec.2.2.2.2.1, if_neg hspec.2.2.2.2.2]
      rfl
  have hfilter : (Text.base64Encode b).filter (fun c => c != '\n' && c != '\r') =
      Text.base64Encode b := by
    refine List.filter_eq_self.2 fun c hc => ?_
    obtain rfl | ⟨n, hn, rfl⟩ := mem_encode hc
    · rfl
    · have hspec := base64Digit_spec n hn
      simp [hspec.2.2.1, hspec.2.2.2.1]
  have hsum := base64Numbers_length b
  have hlen : (Text.base64Encode b).length = (base64Numbers b).length + padding b := by
    rw [base64Encode_eq, List.length_append, List.length_map, List.length_replicate]
  have hpad : padding b ≤ 2 := by
    unfold padding
    omega
  have hdecode : Text.base64Decode false true (String.ofList (Text.base64Encode b)) = some b := by
    unfold Text.base64Decode
    simp only [String.toList_ofList, hfilter, padding_encode, if_true, List.length_map]
    rw [if_pos, mapM_digits _ (base64Numbers_lt b), Option.bind_some, base64Groups_numbers]
    simp only [Bool.and_eq_true, beq_iff_eq, decide_eq_true_eq]
    omega
  unfold base64Decode
  simp only [String.toList_ofList, hstandard, hdecode, Option.filter_some, decide_true, if_true]

/-! ## The key service -/

/-- The `Ed25519` of the cryptography package. -/
structure Ed25519 where
  publicKey : Bytes → Bytes
  sign : Bytes → Bytes → Bytes

/-- The 32 random bytes of `generate`. -/
structure Seed where
  bytes : Bytes
  length_eq : bytes.length = 32

namespace OwnerKeyService

variable {m : Type → Type} [Monad m] [MonadExcept Unit m] (store : SeedStore m)

/-- An await of the cryptography package, which may throw. -/
def computes (ok : Bool) : m Unit := if ok = true then pure () else throw ()

/-- `generate`. -/
def generate (seed : Seed) (ok : Bool) : m Unit := do
  computes ok
  store.write seedKey (String.ofList (Text.base64Encode seed.bytes))

/-- `_seed`, of what is stored. -/
def seedOf (encoded : Option String) : Option Bytes :=
  (encoded.bind base64Decode).filter fun seed => seed.length = 32

/-- `_pair`, of which the seed is kept. -/
def pair (ok : Bool) : m Bytes := do
  let encoded ← store.read seedKey
  match seedOf encoded with
  | none => throw ()
  | some seed =>
      computes ok
      return seed

/-- `publicKey`. -/
def publicKey (E : Ed25519) (ok : Bool) : m Bytes := do
  let seed ← pair store ok
  return E.publicKey seed

/-- `sign`. -/
def sign (E : Ed25519) (ok : Bool) (message : Bytes) : m Bytes := do
  let seed ← pair store ok
  return E.sign seed message

/-- `deleteKey`. -/
def deleteKey : m Unit := store.delete seedKey

/-- **A stored seed is the seed that is read.** -/
theorem seedOf_encode (seed : Seed) :
    seedOf (some (String.ofList (Text.base64Encode seed.bytes))) = some seed.bytes := by
  simp [seedOf, base64Decode_encode, seed.length_eq]

end OwnerKeyService

end Calcar.Phone
