import Calcar.Store.PgSteps

/-!
# Rows under writes

A device row, once there, stays: nothing removes it and nothing changes it
but the revoked flag, which is only ever set.

## Main results

* `Tables.device_writes` — a device row survives any list of writes.
* `Tables.Revoked.writes` — so does its revocation.
* `Tables.revoked_of_mem` — a list of writes that revokes a device leaves it
  revoked.
-/

namespace Calcar.Pg

namespace Tables

variable {t : Tables} {id : String} {d : Device}

/-- A row found under an id has that id. -/
theorem device_id (h : t.device id = some d) : d.id = id := by
  unfold device at h
  have hp := List.find?_some h
  simpa using hp

theorem device_mem (h : t.device id = some d) : d ∈ t.devices := List.mem_of_find?_eq_some h

/-- The flag a revocation sets. -/
def revokeRow (id : String) (d : Device) : Device :=
  if d.id = id then { d with revoked := true } else d

@[simp] theorem revokeRow_id (x : String) (d : Device) : (revokeRow x d).id = d.id := by
  unfold revokeRow
  split <;> rfl

private theorem find_map_devices (f : Device → Device) (hf : ∀ d, (f d).id = d.id)
    (ds : List Device) (id : String) :
    (ds.map f).find? (fun d => d.id = id) = (ds.find? fun d => d.id = id).map f := by
  induction ds with
  | nil => rfl
  | cons d ds ih =>
      simp only [List.map_cons, List.find?_cons, hf]
      by_cases hd : d.id = id
      · simp [hd]
      · simp only [hd, decide_false]
        exact ih

/-- What a write makes of a device row. -/
theorem device_apply (w : Write) (h : t.device id = some d) :
    (t.apply w).device id = some d ∨
      w = .revokeDevice id ∧ (t.apply w).device id = some { d with revoked := true } := by
  cases w with
  | addDevice d' =>
      left
      show List.find? _ (t.devices ++ [d']) = some d
      rw [List.find?_append]
      unfold device at h
      rw [h]
      rfl
  | revokeDevice x =>
      have hx : (t.apply (.revokeDevice x)).device id = (t.device id).map (revokeRow x) :=
        find_map_devices (revokeRow x) (revokeRow_id x) t.devices id
      rw [hx, h]
      by_cases hid : x = id
      · right
        subst hid
        refine ⟨rfl, ?_⟩
        simp [revokeRow, device_id h]
      · left
        have hne : d.id ≠ x := by
          rw [device_id h]
          exact fun he => hid he.symm
        simp [revokeRow, hne]
  | putConn c dv tm =>
      left
      simp only [apply]
      split <;> exact h
  | addUser _ => exact .inl h
  | addRevocation _ => exact .inl h
  | addSession _ => exact .inl h
  | expireSession _ => exact .inl h
  | recordJoin _ _ => exact .inl h
  | addGrant _ => exact .inl h
  | decideSession _ _ _ _ => exact .inl h
  | putPushToken _ _ _ => exact .inl h

/-- A device row survives any writes; only its flag may have been set. -/
theorem device_writes (ws : List Write) (h : t.device id = some d) :
    ∃ d', (ws.foldl apply t).device id = some d' ∧
      (d' = d ∨ d' = { d with revoked := true }) := by
  induction ws generalizing t d with
  | nil => exact ⟨d, h, .inl rfl⟩
  | cons w ws ih =>
      rcases device_apply w h with hd | ⟨_, hd⟩
      · exact ih hd
      · obtain ⟨d', hd', he⟩ := ih hd
        refine ⟨d', hd', .inr ?_⟩
        rcases he with rfl | rfl <;> rfl

theorem device_isSome_writes (ws : List Write) (h : (t.device id).isSome = true) :
    ((ws.foldl apply t).device id).isSome = true := by
  obtain ⟨d, hd⟩ := Option.isSome_iff_exists.mp h
  obtain ⟨d', hd', _⟩ := device_writes ws hd
  rw [hd']
  rfl

/-- A write registers no id but that of the row it adds. -/
theorem device_none_apply {w : Write} (h : t.device id = none)
    (hw : ∀ d, w = .addDevice d → d.id ≠ id) : (t.apply w).device id = none := by
  cases w with
  | addDevice d =>
      have hne : d.id ≠ id := hw d rfl
      show List.find? _ (t.devices ++ [d]) = none
      rw [List.find?_append]
      unfold device at h
      rw [h]
      simp [hne]
  | revokeDevice x =>
      have hx : (t.apply (.revokeDevice x)).device id = (t.device id).map (revokeRow x) :=
        find_map_devices (revokeRow x) (revokeRow_id x) t.devices id
      rw [hx, h]
      rfl
  | putConn c dv tm =>
      simp only [apply]
      split <;> exact h
  | _ => exact h

theorem device_none_writes (ws : List Write) (h : t.device id = none)
    (hws : ∀ d, .addDevice d ∈ ws → d.id ≠ id) : (ws.foldl apply t).device id = none := by
  induction ws generalizing t with
  | nil => exact h
  | cons w ws ih =>
      have hw : ∀ d, w = .addDevice d → d.id ≠ id := by
        intro d he
        exact hws d (he ▸ List.mem_cons_self)
      have hrest : ∀ d, .addDevice d ∈ ws → d.id ≠ id := by
        intro d hm
        exact hws d (List.mem_cons_of_mem _ hm)
      exact ih (device_none_apply h hw) hrest

/-- The device is registered and its flag is set. -/
def Revoked (t : Tables) (id : String) : Prop :=
  ∃ d, t.device id = some d ∧ d.revoked = true

/-- A revocation stays. -/
theorem Revoked.writes (h : t.Revoked id) (ws : List Write) :
    (ws.foldl apply t).Revoked id := by
  obtain ⟨d, hd, hr⟩ := h
  obtain ⟨d', hd', he⟩ := device_writes ws hd
  refine ⟨d', hd', ?_⟩
  rcases he with rfl | rfl
  · exact hr
  · rfl

/-- Writes that revoke a registered device leave it revoked. -/
theorem revoked_of_mem {ws : List Write} (hmem : .revokeDevice id ∈ ws)
    (h : (t.device id).isSome = true) : (ws.foldl apply t).Revoked id := by
  induction ws generalizing t with
  | nil => cases hmem
  | cons w ws ih =>
      obtain ⟨d, hd⟩ := Option.isSome_iff_exists.mp h
      rcases List.mem_cons.mp hmem with rfl | hin
      · have hrev : (t.apply (.revokeDevice id)).Revoked id := by
          rcases device_apply (.revokeDevice id) hd with hd' | ⟨_, hd'⟩
          · have hx : (t.apply (.revokeDevice id)).device id =
                (t.device id).map (revokeRow id) :=
              find_map_devices (revokeRow id) (revokeRow_id id) t.devices id
            refine ⟨d, hd', ?_⟩
            rw [hx, hd] at hd'
            have hfix : revokeRow id d = d := by simpa using hd'
            rw [← hfix]
            simp [revokeRow, device_id hd]
          · exact ⟨_, hd', rfl⟩
        exact hrev.writes ws
      · exact ih hin (device_isSome_writes [w] h)

/-- A revoked device is one `IsRevoked` reports. -/
theorem Revoked.isRevoked (h : t.Revoked id) : t.isRevoked id = true := by
  obtain ⟨d, hd, hr⟩ := h
  unfold Tables.isRevoked
  have hany : t.devices.any (fun d => d.id = id ∧ d.revoked = true) = true :=
    List.any_eq_true.mpr ⟨d, device_mem hd, by simp [device_id hd, hr]⟩
  rw [hany, Bool.true_or]

end Tables

end Calcar.Pg
