import Calcar.Lib.Prog
import Calcar.Phone.Session
import Mathlib.Logic.Function.Basic

/-!
# A session store that is cut short

The app may be killed between any two calls to the secure store.  A session is
four entries that are written one after the other, so what is stored then has
its first fields from one session and the others from another.

## Main results

* `loaded_eq` — what a load makes of the entries.
* `cut_save`, `cut_clear` — what is stored after the calls that were made.
* `session_cut_iff` — when no load shows a mixture.
* `session_mixed` — a session with the device of one login and the token of another.
-/

namespace Calcar.Phone.SessionStore

open Lib

/-! ## The secure store -/

inductive StoreCmd where
  | read (key : String)
  | write (key value : String)
  | delete (key : String)

abbrev StoreCmd.Ans : StoreCmd → Type
  | .read _ => Option String
  | .write _ _ | .delete _ => Unit

/-- A secure store whose calls are made one at a time. -/
def secureEntries : SeedStore (Prog StoreCmd StoreCmd.Ans) where
  read key := Prog.perform (StoreCmd.read key)
  write key value := Prog.perform (StoreCmd.write key value)
  delete key := Prog.perform (StoreCmd.delete key)

/-- What is stored under the keys. -/
abbrev Entries : Type := String → Option String

/-- A call is done at once. -/
def exec : (c : StoreCmd) → Entries → c.Ans × Entries
  | .read key, stored => (stored key, stored)
  | .write key value, stored => ((), Function.update stored key (some value))
  | .delete key, stored => ((), Function.update stored key none)

/-- What a program returns and leaves. -/
def finish {α : Type} : Prog StoreCmd StoreCmd.Ans α → Entries → α × Entries
  | .ret a, stored => (a, stored)
  | .call c k, stored => finish (k (exec c stored).1) (exec c stored).2

/-- What is stored when the app is killed after `n` calls. -/
def cut {α : Type} : Nat → Prog StoreCmd StoreCmd.Ans α → Entries → Entries
  | 0, _, stored => stored
  | _ + 1, .ret _, stored => stored
  | n + 1, .call c k, stored => cut n (k (exec c stored).1) (exec c stored).2

/-- What the next load returns. -/
def loaded (stored : Entries) : Option OwnerSession := (finish (load secureEntries) stored).1

/-! ## The four entries -/

/-- The entries in the order in which they are written; a missing one reads as blank. -/
def fields (stored : Entries) : List String :=
  [(stored deviceKey).getD "", (stored userKey).getD "", (stored tokenKey).getD "",
    (stored refreshKey).getD ""]

def sessionFields (session : OwnerSession) : List String :=
  [session.deviceId, session.userId, session.token, session.refreshToken]

theorem sessionFields_inj {s s' : OwnerSession} (h : sessionFields s = sessionFields s') :
    s = s' := by
  simp only [sessionFields, List.cons.injEq, and_true] at h
  obtain ⟨hdevice, huser, htoken, hrefresh⟩ := h
  cases s
  cases s'
  simp_all

/-- Device, user and token are there; the refresh token may be blank. -/
def Complete (fields : List String) : Prop := ∀ field ∈ fields.take 3, field ≠ ""

instance (fields : List String) : Decidable (Complete fields) :=
  inferInstanceAs (Decidable (∀ field ∈ fields.take 3, field ≠ ""))

theorem complete_iff (stored : Entries) :
    Complete (fields stored) ↔
      ¬ ((stored deviceKey).getD "" = "" ∨ (stored userKey).getD "" = "" ∨
        (stored tokenKey).getD "" = "") := by
  simp [Complete, fields]

/-- The session the entries make up. -/
def sessionOf (stored : Entries) : OwnerSession where
  deviceId := (stored deviceKey).getD ""
  userId := (stored userKey).getD ""
  token := (stored tokenKey).getD ""
  refreshToken := (stored refreshKey).getD ""

/-- A load after its first three reads. -/
theorem loaded_reads (stored : Entries) :
    loaded stored = (finish (if (stored deviceKey).getD "" = "" ∨ (stored userKey).getD "" = "" ∨
        (stored tokenKey).getD "" = "" then clear secureEntries >>= fun _ => pure none
      else secureEntries.read refreshKey >>= fun refreshToken =>
        pure (some { sessionOf stored with refreshToken := refreshToken.getD "" })) stored).1 := rfl

/-- **A load** shows the entries if device, user and token are there. -/
theorem loaded_eq (stored : Entries) :
    loaded stored = if Complete (fields stored) then some (sessionOf stored) else none := by
  rw [loaded_reads]
  by_cases h : (stored deviceKey).getD "" = "" ∨ (stored userKey).getD "" = "" ∨
      (stored tokenKey).getD "" = ""
  · rw [if_neg (fun hc => (complete_iff stored).mp hc h), if_pos h]
    rfl
  · rw [if_pos ((complete_iff stored).mpr h), if_neg h]
    rfl

theorem loaded_some {stored : Entries} {session : OwnerSession} :
    loaded stored = some session ↔
      Complete (fields stored) ∧ sessionFields session = fields stored := by
  rw [loaded_eq]
  by_cases h : Complete (fields stored)
  · rw [if_pos h, Option.some.injEq]
    constructor
    · rintro rfl
      exact ⟨h, rfl⟩
    · rintro ⟨_, hfields⟩
      exact (sessionFields_inj hfields).symm
  · rw [if_neg h]
    constructor
    · intro hnone
      cases hnone
    · rintro ⟨hcomplete, _⟩
      exact absurd hcomplete h

theorem loaded_none {stored : Entries} (h : ¬ Complete (fields stored)) : loaded stored = none := by
  rw [loaded_eq, if_neg h]

/-- A load depends on the fields alone. -/
theorem loaded_congr {stored stored' : Entries} (h : fields stored = fields stored') :
    loaded stored = loaded stored' := by
  refine Option.ext fun session => ?_
  rw [loaded_some, loaded_some, h]

/-! ## Cut short -/

/-- The first fields of one list and the others of another. -/
def mixed (n : Nat) (new old : List String) : List String := new.take n ++ old.drop n

/-- **A save that is cut short** has written the first fields. -/
theorem cut_save (session : OwnerSession) (stored : Entries) (n : Nat) :
    fields (cut n (save secureEntries session) stored) =
      mixed n (sessionFields session) (fields stored) := by
  match n with
  | 0 => rfl
  | 1 => rfl
  | 2 => rfl
  | 3 => rfl
  | n + 4 =>
      have hcut : cut (n + 4) (save secureEntries session) stored =
          cut 4 (save secureEntries session) stored := by
        cases n <;> rfl
      rw [hcut]
      simp only [mixed, sessionFields, fields, List.take_succ_cons, List.drop_succ_cons,
        List.take_nil, List.drop_nil, List.append_nil]
      rfl

/-- **A clear that is cut short** leaves nothing to load once it has begun. -/
theorem cut_clear (stored : Entries) (n : Nat) :
    cut n (clear secureEntries) stored = stored ∨
      ¬ Complete (fields (cut n (clear secureEntries) stored)) := by
  match n with
  | 0 => exact .inl rfl
  | n + 1 =>
      refine .inr fun h => ?_
      have hdevice : (cut (n + 1) (clear secureEntries) stored deviceKey).getD "" = "" := by
        match n with
        | 0 => rfl
        | 1 => rfl
        | 2 => rfl
        | n + 3 =>
            cases n <;> rfl
      exact h _ List.mem_cons_self hdevice

theorem mixed_whole {n : Nat} {new old : List String} (hnew : new.length ≤ n)
    (hold : old.length ≤ n) : mixed n new old = new := by
  rw [mixed, List.take_of_length_le hnew, List.drop_of_length_le hold, List.append_nil]

theorem mixed_old {n : Nat} {new old : List String} (h : old.take n = new.take n) :
    mixed n new old = old := by
  rw [mixed, ← h, List.take_append_drop]

theorem mixed_new {n : Nat} {new old : List String} (h : old.drop n = new.drop n) :
    mixed n new old = new := by
  rw [mixed, h, List.take_append_drop]

theorem mixed_take {n : Nat} {new old : List String} (h : n ≤ new.length) :
    (mixed n new old).take n = new.take n := by
  rw [mixed, List.take_left' (List.length_take_of_le h)]

theorem mixed_drop {n : Nat} {new old : List String} (h : n ≤ new.length) :
    (mixed n new old).drop n = old.drop n := by
  rw [mixed, List.drop_left' (List.length_take_of_le h)]

/-- The next load shows the old session, the new one or nothing. -/
def Whole (new : OwnerSession) (stored after : Entries) : Prop :=
  loaded after = loaded stored ∨ loaded after = some new ∨ loaded after = none

/-- What a save that is cut short shows. -/
theorem save_whole_iff (new : OwnerSession) (stored : Entries) {n : Nat} (hn : n ≤ 4) :
    Whole new stored (cut n (save secureEntries new) stored) ↔
      (Complete (mixed n (sessionFields new) (fields stored)) →
        (fields stored).take n = (sessionFields new).take n ∨
          (fields stored).drop n = (sessionFields new).drop n) := by
  have hfields := cut_save new stored n
  have hlength : n ≤ (sessionFields new).length := hn
  constructor
  · intro h hcomplete
    rw [← hfields] at hcomplete
    have hcut : loaded (cut n (save secureEntries new) stored) =
        some (sessionOf (cut n (save secureEntries new) stored)) := by
      rw [loaded_eq, if_pos hcomplete]
    obtain hold | hnew | hnone := h
    · obtain ⟨_, hstored⟩ := loaded_some.mp (hold.symm.trans hcut)
      obtain ⟨_, hafter⟩ := loaded_some.mp hcut
      rw [hafter, hfields] at hstored
      exact .inl (hstored ▸ mixed_take hlength)
    · obtain ⟨_, hafter⟩ := loaded_some.mp hnew
      rw [hfields] at hafter
      exact .inr ((mixed_drop hlength).symm.trans (congrArg _ hafter.symm))
    · rw [hcut] at hnone
      cases hnone
  · intro h
    by_cases hcomplete : Complete (mixed n (sessionFields new) (fields stored))
    · obtain htake | hdrop := h hcomplete
      · rw [mixed_old htake] at hfields
        exact .inl (loaded_congr hfields)
      · rw [mixed_new hdrop] at hfields hcomplete
        exact .inr (.inl (loaded_some.mpr ⟨hfields.symm ▸ hcomplete, hfields.symm⟩))
    · exact .inr (.inr (loaded_none (hfields.symm ▸ hcomplete)))

/-- **A store that is cut short.**  Whenever the app is killed inside a save or a clear, the
next load shows the old session, the new one or nothing, if and only if after one, two and
three writes either an entry is blank that must not be, or what was written is what was there
before, or what was not yet written is what would be. -/
theorem session_cut_iff (new : OwnerSession) (stored : Entries) :
    ((∀ n, Whole new stored (cut n (save secureEntries new) stored)) ∧
      ∀ n, loaded (cut n (clear secureEntries) stored) = loaded stored ∨
        loaded (cut n (clear secureEntries) stored) = none) ↔
    ∀ n ∈ [1, 2, 3], Complete (mixed n (sessionFields new) (fields stored)) →
      (fields stored).take n = (sessionFields new).take n ∨
        (fields stored).drop n = (sessionFields new).drop n := by
  constructor
  · rintro ⟨hsave, _⟩ n hn
    have hle : n ≤ 4 := by
      simp only [List.mem_cons, List.not_mem_nil, or_false] at hn
      omega
    exact (save_whole_iff new stored hle).mp (hsave n)
  · intro h
    refine ⟨fun n => ?_, fun n => ?_⟩
    · by_cases hn : n ≤ 4
      · refine (save_whole_iff new stored hn).mpr ?_
        match n with
        | 0 => exact fun _ => .inl rfl
        | 1 => exact h 1 (by simp)
        | 2 => exact h 2 (by simp)
        | 3 => exact h 3 (by simp)
        | 4 => exact fun _ => .inr rfl
        | n + 5 => omega
      · have hlong : fields (cut n (save secureEntries new) stored) =
            fields (cut 4 (save secureEntries new) stored) := by
          rw [cut_save, cut_save, mixed_whole (by simp [sessionFields]; omega)
            (by simp [fields]; omega), mixed_whole (by simp [sessionFields]) (by simp [fields])]
        have hfour := (save_whole_iff new stored (Nat.le_refl 4)).mpr fun _ => .inr rfl
        unfold Whole at hfour ⊢
        rwa [loaded_congr hlong]
    · obtain hsame | hgone := cut_clear stored n
      · exact .inl (congrArg loaded hsame)
      · exact .inr (loaded_none hgone)

/-- The entries of a session. -/
def storedOf (session : OwnerSession) : Entries :=
  cut 4 (save secureEntries session) fun _ => none

/-- The app is killed after the first write of a second login. -/
theorem session_mixed :
    ¬ Whole ⟨"PH-2", "u2", "t2", "r2"⟩ (storedOf ⟨"PH-1", "u1", "t1", "r1"⟩)
        (cut 1 (save secureEntries ⟨"PH-2", "u2", "t2", "r2"⟩)
          (storedOf ⟨"PH-1", "u1", "t1", "r1"⟩)) := by
  unfold Whole
  decide

end Calcar.Phone.SessionStore
