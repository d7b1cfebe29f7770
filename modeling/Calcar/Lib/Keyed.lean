import Mathlib.Data.List.Induction

/-!
# Cells under keys

Each operation of a history works on the cell under one key, or on none.  The
cell under a key is then the fold of the operations on that key alone.

## Main results

* `cell_on`, `cell_off` — one operation more.
* `cell_congr` — operations on other keys do not matter.
* `cell_keeps` — what every operation on the key keeps, a history keeps.
* `left_once` — a history leaves what it never comes back to at most once.
-/

namespace Calcar.Lib

variable {K C Op : Type} [DecidableEq K] (key : Op → Option K) (next : Op → Option C → Option C)

/-- The operations on a key. -/
def opsOn (k : K) (ops : List Op) : List Op := ops.filter fun op => key op = some k

/-- What the operations leave under a key. -/
def cell (k : K) (ops : List Op) : Option C :=
  (opsOn key k ops).foldl (fun c op => next op c) none

variable {key next}

theorem opsOn_concat_on {k : K} {op : Op} (h : key op = some k) (ops : List Op) :
    opsOn key k (ops ++ [op]) = opsOn key k ops ++ [op] := by
  simp [opsOn, h]

theorem opsOn_concat_off {k : K} {op : Op} (h : key op ≠ some k) (ops : List Op) :
    opsOn key k (ops ++ [op]) = opsOn key k ops := by
  simp [opsOn, h]

theorem cell_on {k : K} {op : Op} (h : key op = some k) (ops : List Op) :
    cell key next k (ops ++ [op]) = next op (cell key next k ops) := by
  unfold cell
  rw [opsOn_concat_on h, List.foldl_append, List.foldl_cons, List.foldl_nil]

theorem cell_off {k : K} {op : Op} (h : key op ≠ some k) (ops : List Op) :
    cell key next k (ops ++ [op]) = cell key next k ops := by
  unfold cell
  rw [opsOn_concat_off h]

/-- **Operations on other keys do not matter.** -/
theorem cell_congr {k : K} {ops ops' : List Op} (h : opsOn key k ops = opsOn key k ops') :
    cell key next k ops = cell key next k ops' := by
  unfold cell
  rw [h]

/-- What every operation on the key keeps, more operations keep. -/
theorem cell_keeps {J : Option C → Prop} {k : K} {ops more : List Op}
    (hstep : ∀ op ∈ more, key op = some k → ∀ c, J c → J (next op c))
    (h : J (cell key next k ops)) : J (cell key next k (ops ++ more)) := by
  induction more using List.reverseRecOn with
  | nil => simpa using h
  | append_singleton more op ih =>
      have hbefore := ih fun op' hop' => hstep op' (List.mem_append_left _ hop')
      rw [← List.append_assoc]
      by_cases hk : key op = some k
      · rw [cell_on hk]
        exact hstep op (List.mem_append_right _ (List.mem_singleton_self op)) hk _ hbefore
      · rw [cell_off hk]
        exact hbefore

/-- Of two places in a list, one is before the other. -/
theorem places {α : Type} {pre pre' l : List α} {a a' : α} (h : pre ++ [a] <+: l)
    (h' : pre' ++ [a'] <+: l) :
    pre = pre' ∨ pre ++ [a] <+: pre' ∨ pre' ++ [a'] <+: pre := by
  by_cases hlen : pre.length = pre'.length
  · have hpre := (List.prefix_append pre [a]).trans h
    have hpre' := (List.prefix_append pre' [a']).trans h'
    have hle : pre <+: pre' := List.prefix_of_prefix_length_le hpre hpre' (by omega)
    exact .inl (hle.eq_of_length hlen)
  · by_cases hlt : pre.length < pre'.length
    · have hpre' := (List.prefix_append pre' [a']).trans h'
      have hshort : (pre ++ [a]).length ≤ pre'.length := by
        rw [List.length_append, List.length_singleton]
        omega
      exact .inr (.inl (List.prefix_of_prefix_length_le h hpre' hshort))
    · have hpre := (List.prefix_append pre [a]).trans h
      have hshort : (pre' ++ [a']).length ≤ pre.length := by
        rw [List.length_append, List.length_singleton]
        omega
      exact .inr (.inr (List.prefix_of_prefix_length_le h' hpre hshort))

/-- **Left once.**  A history that cannot come back is at one place at most where it
leaves. -/
theorem left_once {P Q : List Op → Prop} {ops pre pre' : List Op} {op op' : Op}
    (hnever : ∀ before more, Q before → ¬ P (before ++ more))
    (h : pre ++ [op] <+: ops) (h' : pre' ++ [op'] <+: ops)
    (hin : P pre) (hout : Q (pre ++ [op])) (hin' : P pre') (hout' : Q (pre' ++ [op'])) :
    pre = pre' := by
  obtain heq | ⟨more, hmore⟩ | ⟨more, hmore⟩ := places h h'
  · exact heq
  · exact absurd (hmore ▸ hin') (hnever _ more hout)
  · exact absurd (hmore ▸ hin) (hnever _ more hout')

end Calcar.Lib
