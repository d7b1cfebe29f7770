import Mathlib.Data.Nat.Bitwise

/-!
# Bits of numbers, and their regrouping

The low bits of a number as a list, the highest first, and the numbers that
groups of bits spell.

## Main results

* `lowBits_add` — the low bits of a number are those of its upper part and
  those of its lower part.
* `ofBits_lowBits` — low bits spell the number modulo a power of two.
* `groups_append`, `groups_short` — a full group, and the one that is filled up.
-/

namespace Calcar.Lib

/-- The `k` low bits of a number, the highest first. -/
def lowBits (n : Nat) : Nat → List Bool
  | 0 => []
  | k + 1 => n.testBit k :: lowBits n k

/-- The number that bits spell, the highest first. -/
def ofBits : List Bool → Nat
  | [] => 0
  | b :: bits => b.toNat * 2 ^ bits.length + ofBits bits

attribute [grind =] lowBits ofBits

@[simp] theorem length_lowBits (n k : Nat) : (lowBits n k).length = k := by
  induction k with
  | zero => rfl
  | succ k ih => rw [lowBits, List.length_cons, ih]

theorem lowBits_congr {n m k : Nat} (h : ∀ i < k, n.testBit i = m.testBit i) :
    lowBits n k = lowBits m k := by
  induction k with
  | zero => rfl
  | succ k ih =>
      rw [lowBits, lowBits, h k (Nat.lt_succ_self k), ih fun i hi => h i (by omega)]

/-- The upper part of the bits, then the lower. -/
theorem lowBits_add (n j k : Nat) : lowBits n (j + k) = lowBits (n >>> k) j ++ lowBits n k := by
  induction j with
  | zero => simp [lowBits]
  | succ j ih =>
      rw [show j + 1 + k = j + k + 1 by omega, lowBits, lowBits, ih, Nat.testBit_shiftRight,
        Nat.add_comm k j]
      rfl

theorem ofBits_append (bits bits' : List Bool) :
    ofBits (bits ++ bits') = ofBits bits * 2 ^ bits'.length + ofBits bits' := by
  induction bits with
  | nil => simp [ofBits]
  | cons b bits ih =>
      rw [List.cons_append, ofBits, ofBits, ih, List.length_append, Nat.pow_add, Nat.add_mul]
      rw [Nat.mul_assoc, Nat.add_assoc]

theorem ofBits_zeros (k : Nat) : ofBits (List.replicate k false) = 0 := by
  induction k with
  | zero => rfl
  | succ k ih => rw [List.replicate_succ, ofBits, ih]; simp

/-- **Low bits spell the number**, up to what they leave out. -/
theorem ofBits_lowBits (n k : Nat) : ofBits (lowBits n k) = n % 2 ^ k := by
  induction k with
  | zero => simp [lowBits, ofBits, Nat.mod_one]
  | succ k ih =>
      rw [lowBits, ofBits, ih, length_lowBits, Nat.toNat_testBit, Nat.pow_succ, Nat.mod_mul,
        Nat.add_comm, Nat.mul_comm]

/-! ## Groups -/

/-- The bits in groups of `w`, the last one filled up with zeros. -/
def groupsFrom (w : Nat) : Nat → List Bool → List Nat
  | 0, _ => []
  | fuel + 1, bits =>
      if bits = [] then []
      else
        ofBits (bits.take w ++ List.replicate (w - bits.length) false) ::
          groupsFrom w fuel (bits.drop w)

attribute [grind =] groupsFrom

def groups (w : Nat) (bits : List Bool) : List Nat := groupsFrom w bits.length bits

@[simp] theorem groups_nil (w : Nat) : groups w [] = [] := rfl

/-- More fuel than there are bits makes no difference. -/
theorem groupsFrom_fuel {w : Nat} (hw : 0 < w) {fuel fuel' : Nat} {bits : List Bool}
    (h : bits.length ≤ fuel) (h' : bits.length ≤ fuel') :
    groupsFrom w fuel bits = groupsFrom w fuel' bits := by
  induction fuel generalizing fuel' bits with
  | zero =>
      have hnil : bits = [] := List.length_eq_zero_iff.mp (Nat.le_zero.mp h)
      cases fuel' with
      | zero => rfl
      | succ fuel' => rw [groupsFrom, groupsFrom, if_pos hnil]
  | succ fuel ih =>
      by_cases hnil : bits = []
      · cases fuel' with
        | zero => rw [groupsFrom, groupsFrom, if_pos hnil]
        | succ fuel' => rw [groupsFrom, groupsFrom, if_pos hnil, if_pos hnil]
      · have hpos : 0 < bits.length := List.length_pos_iff.mpr hnil
        cases fuel' with
        | zero => omega
        | succ fuel' =>
            have hdrop : (bits.drop w).length < bits.length := by
              rw [List.length_drop]
              omega
            rw [groupsFrom, groupsFrom, if_neg hnil, if_neg hnil,
              ih (by omega : (bits.drop w).length ≤ fuel) (by omega : _ ≤ fuel')]

theorem groups_cut {w : Nat} (hw : 0 < w) {bits : List Bool} (hnil : bits ≠ []) :
    groups w bits =
      ofBits (bits.take w ++ List.replicate (w - bits.length) false) :: groups w (bits.drop w) := by
  have hpos : 0 < bits.length := List.length_pos_iff.mpr hnil
  have hone : groups w bits = groupsFrom w (bits.length + 1) bits :=
    groupsFrom_fuel hw (Nat.le_refl _) (Nat.le_succ _)
  have hdrop : (bits.drop w).length ≤ bits.length := by
    rw [List.length_drop]
    omega
  rw [hone, groupsFrom, if_neg hnil, groups, groupsFrom_fuel hw hdrop (Nat.le_refl _)]

/-- **A full group** is spelled as it is. -/
theorem groups_append {w : Nat} (hw : 0 < w) {group : List Bool} (hg : group.length = w)
    (rest : List Bool) : groups w (group ++ rest) = ofBits group :: groups w rest := by
  have hnil : group ++ rest ≠ [] := by
    intro h
    have hlen := congrArg List.length h
    rw [List.length_append, hg] at hlen
    simp only [List.length_nil] at hlen
    omega
  have hfull : w - (group ++ rest).length = 0 := by
    rw [List.length_append, hg]
    omega
  rw [groups_cut hw hnil, hfull, List.replicate_zero, List.append_nil, List.take_left' hg,
    List.drop_left' hg]

/-- **A short group** is filled up. -/
theorem groups_short {w : Nat} {group : List Bool} (hnil : group ≠ []) (hg : group.length < w) :
    groups w group = [ofBits group * 2 ^ (w - group.length)] := by
  have hw : 0 < w := Nat.lt_of_le_of_lt (Nat.zero_le _) hg
  rw [groups_cut hw hnil, List.take_of_length_le hg.le, List.drop_of_length_le hg.le, ofBits_append,
    ofBits_zeros, List.length_replicate, groups_nil, Nat.add_zero]

end Calcar.Lib
