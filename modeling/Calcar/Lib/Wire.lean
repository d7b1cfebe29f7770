/-!
# Base-128 numbers and length-delimited fields

A *varint* writes a number in groups of seven bits, least significant first;
every byte but the last has its high bit set.  A delimited field is a tag, the
length of a byte string and the string itself.

Both can be read back from the front of a longer string, whatever follows.
That is what makes a sequence of fields injective.

## Main results

* `varint_append_inj` — a number in front of a string is determined by it.
* `delimited_append_inj` — the same for a field with a given tag.
* `bounded_eq` — a writer with room for enough groups writes the same.
-/

namespace Calcar.Lib.Wire

/-- A number in groups of seven bits. -/
def varint (n : Nat) : List UInt8 :=
  if n < 128 then [UInt8.ofNat n] else UInt8.ofNat (n % 128 + 128) :: varint (n / 128)
termination_by n
decreasing_by omega

theorem varint_small {n : Nat} (h : n < 128) : varint n = [UInt8.ofNat n] := by
  rw [varint, if_pos h]

theorem varint_large {n : Nat} (h : ¬n < 128) :
    varint n = UInt8.ofNat (n % 128 + 128) :: varint (n / 128) := by
  rw [varint, if_neg h]

/-- Numbers below 256 are told apart by their byte. -/
theorem ofNat_inj {a b : Nat} (ha : a < 256) (hb : b < 256)
    (h : UInt8.ofNat a = UInt8.ofNat b) : a = b := by
  have hnat := congrArg UInt8.toNat h
  rw [UInt8.toNat_ofNat', UInt8.toNat_ofNat', Nat.mod_eq_of_lt ha, Nat.mod_eq_of_lt hb] at hnat
  exact hnat

/-- **A number in front of a string is determined by it.** -/
theorem varint_append_inj {n m : Nat} {xs ys : List UInt8}
    (h : varint n ++ xs = varint m ++ ys) : n = m ∧ xs = ys := by
  induction n using Nat.strongRecOn generalizing m with
  | ind n ih =>
      by_cases hn : n < 128
      · by_cases hm : m < 128
        · rw [varint_small hn, varint_small hm, List.singleton_append, List.singleton_append,
            List.cons.injEq] at h
          have hnm : n = m := ofNat_inj (by omega) (by omega) h.1
          exact ⟨hnm, h.2⟩
        · rw [varint_small hn, varint_large hm, List.singleton_append, List.cons_append,
            List.cons.injEq] at h
          have hnm : n = m % 128 + 128 := ofNat_inj (by omega) (by omega) h.1
          omega
      · by_cases hm : m < 128
        · rw [varint_large hn, varint_small hm, List.singleton_append, List.cons_append,
            List.cons.injEq] at h
          have hnm : n % 128 + 128 = m := ofNat_inj (by omega) (by omega) h.1
          omega
        · rw [varint_large hn, varint_large hm, List.cons_append, List.cons_append,
            List.cons.injEq] at h
          have hlow : n % 128 + 128 = m % 128 + 128 := ofNat_inj (by omega) (by omega) h.1
          have hhigh := ih (n / 128) (by omega) h.2
          have hn' := Nat.mod_add_div n 128
          have hm' := Nat.mod_add_div m 128
          have hdiv := hhigh.1
          refine ⟨?_, hhigh.2⟩
          rw [hdiv] at hn'
          omega

/-- A tagged byte string behind its length. -/
def delimited (tag : Nat) (b : List UInt8) : List UInt8 :=
  varint tag ++ varint b.length ++ b

/-- **A field in front of a string is determined by it.** -/
theorem delimited_append_inj {tag : Nat} {b c x y : List UInt8}
    (h : delimited tag b ++ x = delimited tag c ++ y) : b = c ∧ x = y := by
  unfold delimited at h
  rw [List.append_assoc, List.append_assoc, List.append_assoc, List.append_assoc] at h
  have hlen := varint_append_inj (varint_append_inj h).2
  exact List.append_inj hlen.2 hlen.1

/-! ## Writers with a fixed number of groups -/

/-- The same with room for so many groups. -/
def bounded : Nat → Nat → List UInt8
  | 0, _ => []
  | room + 1, n =>
      if n < 128 then [UInt8.ofNat n]
      else UInt8.ofNat (n % 128 + 128) :: bounded room (n / 128)

/-- The numbers below it fit into so many groups. -/
def capacity : Nat → Nat
  | 0 => 1
  | room + 1 => capacity room * 128

/-- **Enough room is as good as any.** -/
theorem bounded_eq {room n : Nat} (h : n < capacity (room + 1)) :
    bounded (room + 1) n = varint n := by
  induction room generalizing n with
  | zero =>
      have hn : n < 128 := h
      rw [bounded, if_pos hn, varint_small hn]
  | succ room ih =>
      by_cases hn : n < 128
      · rw [bounded, if_pos hn, varint_small hn]
      · have hn' : n < capacity (room + 1) * 128 := h
        have hdiv : n / 128 < capacity (room + 1) := by omega
        rw [bounded, if_neg hn, varint_large hn, ih hdiv]

end Calcar.Lib.Wire
