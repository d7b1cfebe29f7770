import Calcar.Lib.Keyed
import Calcar.Trust.SeenIds

/-!
# The replay cache

While the clock does not go back, a purge takes away only what reads as absent
from then on, so the cache answers as if an id were held from the last `Add` it
took until that one's time is over.

## Main results

* `seen_after` — what reads as live is what the accepted calls hold.
* `results_purges` — purges change no result.
* `replay_cache` — what every call on an id gets.
-/

namespace Calcar.Trust.SeenIDs

open Lib

inductive Call where
  | add (id : String) (nowMillis ttlMillis : Int)
  | seen (id : String) (nowMillis : Int)
  | purge (nowMillis : Int)
  deriving DecidableEq, Repr

/-- The clock reading of a call. -/
def Call.now : Call → Int
  | .add _ nowMillis _ => nowMillis
  | .seen _ nowMillis => nowMillis
  | .purge nowMillis => nowMillis

/-- The id a call names. -/
def Call.key : Call → Option String
  | .add id _ _ => some id
  | .seen id _ => some id
  | .purge _ => none

/-- What a call returns. -/
inductive Reply where
  | added (result : Except TrustError Unit)
  | live (result : Bool)
  | purged

def call (c : SeenIDs) : Call → Reply × SeenIDs
  | .add id nowMillis ttlMillis =>
      (.added (c.add id nowMillis ttlMillis).1, (c.add id nowMillis ttlMillis).2)
  | .seen id nowMillis => (.live (c.seen id nowMillis), c)
  | .purge nowMillis => (.purged, c.purge nowMillis)

/-- The cache after the calls. -/
def after (calls : List Call) : SeenIDs :=
  calls.foldl (fun c op => (c.call op).2) newSeenIDs

theorem after_concat (calls : List Call) (op : Call) :
    after (calls ++ [op]) = ((after calls).call op).2 := by
  simp [after]

/-- What a call returns after the calls. -/
def reply (calls : List Call) (op : Call) : Reply := ((after calls).call op).1

/-- The times of a call: a ttl is not negative, and its end fits. -/
def Call.Fits : Call → Prop
  | .add _ nowMillis ttlMillis => 0 ≤ ttlMillis ∧ InInt64 (nowMillis + ttlMillis)
  | .seen _ _ => True
  | .purge _ => True

instance (op : Call) : Decidable op.Fits := by
  unfold Call.Fits
  split <;> infer_instance

/-- A history the cache is made for: the clock does not go back. -/
structure Orderly (calls : List Call) : Prop where
  clock : calls.Pairwise fun op op' => op.now ≤ op'.now
  fits : ∀ op ∈ calls, op.Fits

instance (calls : List Call) : Decidable (Orderly calls) :=
  decidable_of_iff ((calls.Pairwise fun op op' => op.now ≤ op'.now) ∧ ∀ op ∈ calls, op.Fits)
    ⟨fun h => ⟨h.1, h.2⟩, fun h => ⟨h.clock, h.fits⟩⟩

theorem Orderly.of_append {calls more : List Call} (h : Orderly (calls ++ more)) :
    Orderly calls where
  clock := (List.pairwise_append.mp h.clock).1
  fits := fun op hop => h.fits op (List.mem_append_left _ hop)

theorem Orderly.le_last {calls : List Call} {op : Call} (h : Orderly (calls ++ [op])) :
    ∀ op' ∈ calls, op'.now ≤ op.now := fun op' hop' =>
  (List.pairwise_append.mp h.clock).2.2 op' hop' op (List.mem_singleton_self op)

theorem Orderly.filter {calls : List Call} (h : Orderly calls) (p : Call → Bool) :
    Orderly (calls.filter p) where
  clock := h.clock.filter p
  fits := fun op hop => h.fits op (List.mem_filter.mp hop).1

/-! ## What is held -/

/-- Held until an instant. -/
def heldAt (t : Int) : Option Int → Bool
  | some exp => decide (t < exp)
  | none => false

/-- An `Add` holds a free id for its time. -/
def Call.next : Call → Option Int → Option Int
  | .add id t d, stored => if id = "" ∨ heldAt t stored = true then stored else some (t + d)
  | .seen _ _, stored => stored
  | .purge _, stored => stored

/-- The instant until which the calls hold an id. -/
def held (id : String) (calls : List Call) : Option Int := cell Call.key Call.next id calls

theorem add_refused {c : SeenIDs} {id : String} {t : Int} (h : id = "" ∨ c.seen id t = true)
    (d : Int) : (c.add id t d).2 = c := by
  unfold add
  by_cases hid : id = ""
  · rw [if_pos hid]
  · rw [if_neg hid, if_pos (h.resolve_left hid)]

theorem seen_add_self {c : SeenIDs} {id : String} {t d : Int}
    (h : ¬ (id = "" ∨ c.seen id t = true)) (hsum : InInt64 (t + d)) (t' : Int) :
    (c.add id t d).2.seen id t' = heldAt t' (some (t + d)) := by
  obtain ⟨hid, hfree⟩ := not_or.mp h
  have hadded : (c.add id t d).2.expires id = some (t + d) := by
    rw [add, if_neg hid, if_neg hfree, wrap64_self hsum]
    exact if_pos rfl
  rw [seen, hadded]
  rfl

theorem seen_add_ne (c : SeenIDs) {id id' : String} (h : id ≠ id') (t d t' : Int) :
    (c.add id' t d).2.seen id t' = c.seen id t' := by
  unfold add
  split
  · rfl
  · split
    · rfl
    · simp only [seen, if_neg h]

/-- A purge is not seen from its instant on. -/
theorem seen_purge (c : SeenIDs) (id : String) {t t' : Int} (h : t ≤ t') :
    (c.purge t).seen id t' = c.seen id t' := by
  simp only [purge, seen]
  cases c.expires id with
  | none => rfl
  | some exp =>
      by_cases hgone : exp ≤ t
      · simp only [Option.filter, hgone, decide_true, Bool.not_true, Bool.false_eq_true,
          if_false]
        exact (decide_eq_false (by omega)).symm
      · simp only [Option.filter, hgone, decide_false, Bool.not_false, if_true]

/-- One call more, read at or after its instant. -/
theorem seen_call {c : SeenIDs} {id : String} {stored : Option Int} {op : Call}
    (h : ∀ t, op.now ≤ t → c.seen id t = heldAt t stored)
    (hfits : op.Fits) {t : Int} (ht : op.now ≤ t) :
    (c.call op).2.seen id t =
      heldAt t (if op.key = some id then op.next stored else stored) := by
  cases op with
  | add id' t' d =>
      by_cases hid : id' = id
      · subst hid
        have hnow : c.seen id' t' = heldAt t' stored := h t' (Int.le_refl t')
        have hkey : (Call.add id' t' d).key = some id' := rfl
        rw [if_pos hkey, Call.next, ← hnow]
        by_cases hrefused : id' = "" ∨ c.seen id' t' = true
        · rw [if_pos hrefused, ← h t ht]
          exact congrArg (fun c => c.seen id' t) (add_refused hrefused d)
        · rw [if_neg hrefused]
          exact seen_add_self hrefused hfits.2 t
      · have hkey : (Call.add id' t' d).key ≠ some id := fun hk => hid (Option.some.inj hk)
        rw [if_neg hkey, ← h t ht]
        exact seen_add_ne c (Ne.symm hid) t' d t
  | seen id' t' => simpa only [call, Call.next, ite_self] using h t ht
  | purge t' =>
      rw [Call.next, ite_self, ← h t ht]
      exact seen_purge c id ht

/-- **What reads as live is held**: from the last call on, however often was purged. -/
theorem seen_after {calls : List Call} (h : Orderly calls) {t : Int}
    (ht : ∀ op ∈ calls, op.now ≤ t) (id : String) :
    (after calls).seen id t = heldAt t (held id calls) := by
  induction calls using List.reverseRecOn generalizing t with
  | nil => rfl
  | append_singleton calls op ih =>
      have hlast := ht op (List.mem_append_right _ (List.mem_singleton_self op))
      have hbefore : ∀ t', op.now ≤ t' →
          (after calls).seen id t' = heldAt t' (held id calls) := fun t' ht' =>
        ih h.of_append fun op' hop' => Int.le_trans (h.le_last op' hop') ht'
      have hfits := h.fits op (List.mem_append_right _ (List.mem_singleton_self op))
      rw [after_concat, seen_call hbefore hfits hlast]
      by_cases hkey : op.key = some id
      · have hcell : held id (calls ++ [op]) = op.next (held id calls) := cell_on hkey calls
        rw [if_pos hkey, hcell]
      · have hcell : held id (calls ++ [op]) = held id calls := cell_off hkey calls
        rw [if_neg hkey, hcell]

/-- What a call on an id returns, by whether the id is live. -/
def Call.answer (live : Bool) : Call → Reply
  | .add _ _ _ =>
      .added (if live = true then .error ⟨.replayedId, "id already seen"⟩ else .ok ())
  | .seen _ _ => .live live
  | .purge _ => .purged

/-- A reply is decided by what is held. -/
theorem reply_held {calls : List Call} {op : Call} (h : Orderly (calls ++ [op])) {id : String}
    (hkey : op.key = some id) (hid : id ≠ "") :
    reply calls op = op.answer (heldAt op.now (held id calls)) := by
  have hseen := seen_after h.of_append h.le_last id
  cases op with
  | add id' t d =>
      obtain rfl := Option.some.inj hkey
      have hseen : (after calls).seen id' t = heldAt t (held id' calls) := hseen
      simp only [reply, call, add, if_neg hid, Call.answer, Call.now, ← hseen]
      split <;> rfl
  | seen id' t =>
      obtain rfl := Option.some.inj hkey
      exact congrArg Reply.live hseen
  | purge t => cases hkey

/-- An `Add` of the empty id is refused whatever came before. -/
theorem reply_empty {calls calls' : List Call} {op : Call} (h : Orderly (calls ++ [op]))
    (h' : Orderly (calls' ++ [op])) (hkey : op.key = some "")
    (hheld : held "" calls = held "" calls') : reply calls op = reply calls' op := by
  cases op with
  | add id t d =>
      obtain rfl := Option.some.inj hkey
      rfl
  | seen id t =>
      obtain rfl := Option.some.inj hkey
      have hseen := seen_after h.of_append h.le_last ""
      rw [hheld, ← seen_after h'.of_append h'.le_last ""] at hseen
      exact congrArg Reply.live hseen
  | purge t => cases hkey

/-- The calls that name an id. -/
def callsOn (id : String) (calls : List Call) : List Call := opsOn Call.key id calls

/-- **Other ids make no difference**, and neither do purges. -/
theorem reply_congr {calls calls' : List Call} {op : Call} (h : Orderly (calls ++ [op]))
    (h' : Orderly (calls' ++ [op])) {id : String} (hkey : op.key = some id)
    (hcalls : callsOn id calls = callsOn id calls') : reply calls op = reply calls' op := by
  have hheld : held id calls = held id calls' := cell_congr hcalls
  by_cases hid : id = ""
  · subst hid
    exact reply_empty h h' hkey hheld
  · rw [reply_held h hkey hid, reply_held h' hkey hid, hheld]

/-! ## Purges -/

/-- The calls with what they return. -/
def results (c : SeenIDs) : List Call → List (Call × Reply)
  | [] => []
  | op :: ops => (op, (c.call op).1) :: results (c.call op).2 ops

theorem results_concat (c : SeenIDs) (calls : List Call) (op : Call) :
    results c (calls ++ [op]) =
      results c calls ++ [(op, ((calls.foldl (fun c op => (c.call op).2) c).call op).1)] := by
  induction calls generalizing c with
  | nil => rfl
  | cons op' calls ih =>
      rw [List.cons_append, results, ih]
      rfl

/-- The call is no purge. -/
def Call.asks (op : Call) : Bool := op.key.isSome

theorem callsOn_asks (id : String) (calls : List Call) :
    callsOn id (calls.filter Call.asks) = callsOn id calls := by
  unfold callsOn opsOn
  rw [List.filter_filter]
  refine List.filter_congr fun op _ => ?_
  by_cases hkey : op.key = some id
  · simp [hkey, Call.asks]
  · simp [hkey]

/-- **Purges change no result**: without them the other calls return the same. -/
theorem results_purges {calls : List Call} (h : Orderly calls) :
    (results newSeenIDs calls).filter (fun r => r.1.asks) =
      results newSeenIDs (calls.filter Call.asks) := by
  induction calls using List.reverseRecOn with
  | nil => rfl
  | append_singleton calls op ih =>
      rw [results_concat, List.filter_append, ih h.of_append, List.filter_append]
      by_cases hask : op.asks = true
      · obtain ⟨id, hkey⟩ := Option.isSome_iff_exists.mp hask
        have hfilter : (calls ++ [op]).filter Call.asks = calls.filter Call.asks ++ [op] := by
          rw [List.filter_append, List.filter_cons_of_pos hask, List.filter_nil]
        have hsame : reply calls op = reply (calls.filter Call.asks) op :=
          reply_congr h (hfilter ▸ h.filter Call.asks) hkey (callsOn_asks id calls).symm
        rw [List.filter_cons_of_pos hask, List.filter_nil,
          List.filter_cons_of_pos (p := fun r : Call × Reply => r.1.asks) hask, List.filter_nil,
          results_concat]
        exact congrArg (fun r => results newSeenIDs (calls.filter Call.asks) ++ [(op, r)]) hsame
      · rw [List.filter_cons_of_neg hask, List.filter_nil, List.append_nil,
          List.filter_cons_of_neg (p := fun r : Call × Reply => r.1.asks) hask, List.filter_nil,
          List.append_nil]

/-! ## The life of an id -/

/-- After the first calls, none of the others is an `Add` of the id that is accepted. -/
def NoneAccepted (id : String) (calls more : List Call) : Prop :=
  ∀ t d before, before ++ [.add id t d] <+: more →
    reply (calls ++ before) (.add id t d) ≠ .added (.ok ())

theorem answer_live {live : Bool} {id : String} {t d : Int}
    (h : (Call.add id t d).answer live ≠ .added (.ok ())) : live = true := by
  cases live with
  | true => rfl
  | false => exact absurd rfl h

/-- Without an accepted `Add`, what is held stays. -/
theorem held_stays {id : String} (hid : id ≠ "") {calls more : List Call}
    (h : Orderly (calls ++ more)) (hnone : NoneAccepted id calls more) :
    held id (calls ++ more) = held id calls := by
  induction more using List.reverseRecOn with
  | nil => rw [List.append_nil]
  | append_singleton more op ih =>
      rw [← List.append_assoc] at h ⊢
      have hbefore := ih h.of_append fun t d before hmem =>
        hnone t d before (hmem.trans (List.prefix_append more [op]))
      by_cases hkey : op.key = some id
      · have hcell : held id (calls ++ more ++ [op]) = op.next (held id (calls ++ more)) :=
          cell_on hkey (calls ++ more)
        rw [hcell]
        cases op with
        | add id' t d =>
            obtain rfl := Option.some.inj hkey
            have hrefused := hnone t d more (List.prefix_refl _)
            rw [reply_held h hkey hid] at hrefused
            have hlive := answer_live hrefused
            rw [Call.next, if_pos (.inr hlive)]
            exact hbefore
        | seen id' t => exact hbefore
        | purge t => cases hkey
      · rw [held, cell_off hkey]
        exact hbefore

/-- An accepted `Add` holds the id for its time. -/
theorem held_accepted {id : String} {t d : Int} {calls : List Call}
    (h : Orderly (calls ++ [.add id t d]))
    (hok : reply calls (.add id t d) = .added (.ok ())) :
    id ≠ "" ∧ held id (calls ++ [.add id t d]) = some (t + d) := by
  have hid : id ≠ "" := by
    rintro rfl
    cases hok
  have hkey : (Call.add id t d).key = some id := rfl
  refine ⟨hid, ?_⟩
  have hfree : heldAt t (held id calls) ≠ true := by
    intro hlive
    rw [reply_held h hkey hid, Call.now, hlive] at hok
    cases hok
  have hcell : held id (calls ++ [.add id t d]) = (Call.add id t d).next (held id calls) :=
    cell_on hkey calls
  rw [hcell]
  exact if_neg (not_or.mpr ⟨hid, hfree⟩)

/-- **Held until its time is over**: the calls in between are refused. -/
theorem held_until {id : String} {exp : Int} {calls more : List Call}
    (hheld : held id calls = some exp) (hearly : ∀ op ∈ more, op.now < exp) :
    held id (calls ++ more) = some exp := by
  refine cell_keeps (J := fun u => u = some exp) (fun op hop _ u hu => ?_) hheld
  subst hu
  cases op with
  | add id' t d =>
      have hlive : heldAt t (some exp) = true := decide_eq_true (hearly _ hop)
      rw [Call.next, if_pos (.inr hlive)]
  | seen id' t => rfl
  | purge t => rfl

/-- **The replay cache.**  An id accepted at `t` for `d` is refused and seen before
`t + d`, and free again from then on; an id never accepted is free; a reply does not depend
on other ids; and the calls return the same whatever is purged. -/
theorem replay_cache :
    (∀ calls more id t d op, Orderly (calls ++ .add id t d :: more ++ [op]) →
      reply calls (.add id t d) = .added (.ok ()) → op.key = some id →
      (op.now < t + d → reply (calls ++ .add id t d :: more) op = op.answer true) ∧
        (t + d ≤ op.now → NoneAccepted id (calls ++ [.add id t d]) more →
          reply (calls ++ .add id t d :: more) op = op.answer false)) ∧
    (∀ calls id op, Orderly (calls ++ [op]) → op.key = some id → id ≠ "" →
      NoneAccepted id [] calls → reply calls op = op.answer false) ∧
    (∀ calls calls' id op, Orderly (calls ++ [op]) → Orderly (calls' ++ [op]) →
      op.key = some id → callsOn id calls = callsOn id calls' →
      reply calls op = reply calls' op) ∧
    (∀ calls calls', Orderly calls → Orderly calls' →
      calls.filter Call.asks = calls'.filter Call.asks →
      (results newSeenIDs calls).filter (fun r => r.1.asks) =
        (results newSeenIDs calls').filter (fun r => r.1.asks)) := by
  refine ⟨fun calls more id t d op h hok hkey => ?_,
    fun calls id op h hkey hid hnone => ?_,
    fun calls calls' id op h h' hkey hcalls => reply_congr h h' hkey hcalls,
    fun calls calls' h h' hasks => ?_⟩
  · have hsplit : calls ++ .add id t d :: more = calls ++ [.add id t d] ++ more := by simp
    rw [hsplit] at h ⊢
    obtain ⟨hid, hheld⟩ := held_accepted h.of_append.of_append hok
    constructor
    · intro hbefore
      have hstill := held_until hheld fun op' hop' =>
        Int.lt_of_le_of_lt (h.le_last op' (List.mem_append_right _ hop')) hbefore
      rw [reply_held h hkey hid, hstill]
      exact congrArg op.answer (decide_eq_true hbefore)
    · intro hafter hnone
      have hstill := held_stays hid h.of_append hnone
      rw [reply_held h hkey hid, hstill, hheld]
      exact congrArg op.answer (decide_eq_false (Int.not_lt.mpr hafter))
  · have hheld : held id ([] ++ calls) = held id [] := held_stays hid h.of_append hnone
    rw [List.nil_append] at hheld
    rw [reply_held h hkey hid, hheld]
    rfl
  · rw [results_purges h, results_purges h', hasks]

/-- An id taken at 5 for 10, asked for again at 14 and, after a purge, at 15. -/
theorem replay_cache_at_expiry :
    reply ([] ++ .add "N1" 5 10 :: []) (.seen "N1" 14) = (Call.seen "N1" 14).answer true ∧
      reply ([] ++ .add "N1" 5 10 :: [.purge 15]) (.add "N1" 15 10) =
        (Call.add "N1" 15 10).answer false := by
  refine ⟨(replay_cache.1 [] [] "N1" 5 10 _ (by decide) rfl rfl).1 (by decide),
    (replay_cache.1 [] [.purge 15] "N1" 5 10 _ (by decide) rfl rfl).2 (by decide) ?_⟩
  intro t d before h
  obtain ⟨rest, hrest⟩ := h
  cases before with
  | nil => simp at hrest
  | cons op before => simp at hrest

end Calcar.Trust.SeenIDs
