import Calcar.Verified.Registration
import Mathlib.Data.List.TakeWhile

/-!
# Attentions in the queue

An attention is queued as its three texts with a separator between them.  The
parts are cut off from the left, so only the last of them may hold a separator.

## Main results

* `decode_parts` — the two ids a decoded attention has hold no separator.
* `attention_round_trip_iff` — which attentions come back.
* `attention_misread` — an accepted one that does not.
-/

namespace Calcar.Redis

theorem splitN_before {sep : Char} {text : List Char} (h : sep ∉ text) (n : Nat)
    (rest : List Char) :
    splitN sep (n + 2) (text ++ sep :: rest) = text :: splitN sep (n + 1) rest := by
  have hall : ∀ c ∈ text, decide (c ≠ sep) = true := fun c hc =>
    decide_eq_true fun heq => h (heq ▸ hc)
  have hdrop : (text ++ sep :: rest).dropWhile (· ≠ sep) = sep :: rest := by
    rw [List.dropWhile_append_of_pos hall]
    exact List.dropWhile_cons_of_neg (by simp)
  have htake : (text ++ sep :: rest).takeWhile (· ≠ sep) = text := by
    rw [List.takeWhile_append_of_pos hall]
    simp
  rw [splitN, hdrop, htake]

/-- A part that another one follows holds no separator. -/
theorem splitN_part {sep : Char} {n i : Nat} {text part : List Char} (hi : i + 1 < n)
    (h : (splitN sep n text)[i]? = some part) : sep ∉ part := by
  induction n generalizing i text with
  | zero => omega
  | succ n ih =>
      cases n with
      | zero => omega
      | succ n =>
          rw [splitN] at h
          split at h
          · rename_i hnone
            cases i with
            | zero =>
                cases h
                rw [List.dropWhile_eq_nil_iff] at hnone
                intro hmem
                simpa using hnone sep hmem
            | succ i => cases h
          · cases i with
            | zero =>
                cases h
                intro hmem
                simpa using List.mem_takeWhile_imp hmem
            | succ i => exact ih (by omega) h

/-- **The ids of a decoded attention** hold no separator. -/
theorem decode_parts (raw : String) :
    '\x1f' ∉ (decodeAttention raw).computerId.toList ∧
      '\x1f' ∉ (decodeAttention raw).workflowId.toList := by
  have hpart : ∀ i, i + 1 < 3 →
      '\x1f' ∉ ((((splitN '\x1f' 3 raw.toList).map String.ofList)[i]?).getD "").toList := by
    intro i hi
    rw [List.getElem?_map]
    cases h : (splitN '\x1f' 3 raw.toList)[i]? with
    | none => simp
    | some part => simpa using splitN_part hi h
  exact ⟨hpart 0 (by omega), hpart 1 (by omega)⟩

theorem encode_toList (a : Attention) :
    (encodeAttention a).toList =
      a.computerId.toList ++ '\x1f' :: (a.workflowId.toList ++ '\x1f' :: a.kind.toList) := by
  have hsep : "\x1f".toList = ['\x1f'] := rfl
  simp [encodeAttention, String.intercalate_cons_cons, hsep]

/-- **The round trip.**  An attention comes back from the queue as it was if and only if
neither its computer id nor its workflow id holds the separator. -/
theorem attention_round_trip_iff (a : Attention) :
    decodeAttention (encodeAttention a) = a ↔
      '\x1f' ∉ a.computerId.toList ∧ '\x1f' ∉ a.workflowId.toList := by
  constructor
  · intro h
    have hparts := decode_parts (encodeAttention a)
    rw [h] at hparts
    exact hparts
  · rintro ⟨hcomputer, hworkflow⟩
    have hsplit : splitN '\x1f' 3 (encodeAttention a).toList =
        [a.computerId.toList, a.workflowId.toList, a.kind.toList] := by
      rw [encode_toList, splitN_before hcomputer, splitN_before hworkflow]
      rfl
    simp [decodeAttention, hsplit]

end Calcar.Redis

namespace Calcar.Api

open Redis

/-- A computer posts an attention for a workflow whose id holds the separator. -/
def splitIdReq : Request where
  authorization := Sample.bearer 6
  requestId := "r7"
  route := .attention (.ok { computerId := "PC-1", workflowId := "a\x1fb", kind := "approval" })

private theorem split_id_accepted :
    Sample.answered boot Sample.computerLogin = true ∧
    Sample.computerIn.pool.length = 6 ∧
    replied (Sample.ask Sample.computerIn 7 splitIdReq) 6 = some ⟨202, .queued⟩ := by
  decide +kernel

/-- An attention that is accepted and read back as one of the workflow `a`. -/
theorem attention_misread :
    ∃ turns w w', Serving Sample.server {} turns w ∧
      Served Sample.server (fun _ => True) 6 splitIdReq w ⟨202, .queued⟩ w' ∧
      decodeAttention (encodeAttention ⟨"PC-1", "a\x1fb", "approval"⟩) ≠
        ⟨"PC-1", "a\x1fb", "approval"⟩ := by
  obtain ⟨hlogin, hlen, hrep⟩ := split_id_accepted
  obtain ⟨turns, h, -⟩ : ∃ turns, Serving Sample.server {} turns Sample.computerIn.world ∧ _ :=
    serving_asks Sample.computerLogin (c := boot) .start hlogin
  rw [← hlen] at hrep ⊢
  exact ⟨turns, _, _, h, (Sample.ask_served hrep).any, by decide⟩

end Calcar.Api
