import ZeroVpn.Api.Effects

/-!
# What account and maintenance operations do to the fleet

The second half of the effect lemmas: administration, account deletion, the
quota sweep, the rotation of the server key and the restart of the API.
-/

namespace ZeroVpn

open Library
open Library.Attempt (wp wp_pure wp_lift wp_bind wp_bind_of wp_mono)

namespace Api

open Db (Uuid Device User Server DbError Ciphertext UserStatus UserRole DeviceStatus)
open Wg (IpAddr)

section Accounts

variable {s : Sys}

/-- `POST /admin/devices/{id}/pause` and `/unpause`. -/
theorem setDevicePause_wp {deviceId : Uuid} {target : DeviceStatus}
    (htarget : target ≠ .revoked) :
    wp perform (Admin.setDevicePause deviceId target) (fun t _ =>
      t.fleet = s.fleet ∨
        ∃ d ∈ s.fleet.stations, d.id = deviceId ∧ d.status ≠ .revoked ∧
          Settled s.fleet t.fleet d target) s := by
  apply read_then rfl rfl
  apply okOr_then
  · intro device hfound
    obtain ⟨hmem, hid⟩ := getById_eq_some hfound
    apply applyPauseState_then hmem htarget (fun _ => Or.inl rfl)
    intro t hlive hsettled
    apply wp_audit
    exact Or.inr ⟨stationOf device, List.mem_map_of_mem hmem, hid, hlive, hsettled⟩
  · intro _
    exact Or.inl rfl

theorem pauseDevice_settles (actorId deviceId : Uuid) :
    wp perform (Admin.pauseDevice actorId deviceId) (fun t _ =>
      t.fleet = s.fleet ∨
        (s.IsAdmin actorId ∧ ∃ d ∈ s.fleet.stations, d.id = deviceId ∧
          Settled s.fleet t.fleet d .paused)) s := by
  apply requireAdmin_then (fun _ => Or.inl rfl)
  intro _ _ hadmin
  refine wp_mono (setDevicePause_wp (by simp)) ?_
  rintro t _ (h | ⟨d, hd, hid, _, hsettled⟩)
  · exact Or.inl h
  · exact Or.inr ⟨hadmin, d, hd, hid, hsettled⟩

theorem pauseDevice_wp (actorId deviceId : Uuid) :
    wp perform (Admin.pauseDevice actorId deviceId) (fun t _ =>
      t.fleet = s.fleet ∨ ∃ d ∈ s.fleet.stations, Settled s.fleet t.fleet d .paused) s := by
  refine wp_mono (pauseDevice_settles actorId deviceId) ?_
  rintro t _ (h | ⟨_, d, hd, _, hsettled⟩)
  · exact Or.inl h
  · exact Or.inr ⟨d, hd, hsettled⟩

theorem unpauseDevice_wp (actorId deviceId : Uuid) :
    wp perform (Admin.unpauseDevice actorId deviceId) (fun t _ =>
      t.fleet = s.fleet ∨
        (s.IsAdmin actorId ∧ ∃ d ∈ s.fleet.stations, d.id = deviceId ∧ d.status ≠ .revoked ∧
          Settled s.fleet t.fleet d .active)) s := by
  apply requireAdmin_then (fun _ => Or.inl rfl)
  intro _ _ hadmin
  refine wp_mono (setDevicePause_wp (by simp)) ?_
  rintro t _ (h | h)
  · exact Or.inl h
  · exact Or.inr ⟨hadmin, h⟩

/-- `DELETE /admin/devices/{id}`. -/
theorem revokeDevice_settles (actorId deviceId : Uuid) :
    wp perform (Admin.revokeDevice actorId deviceId) (fun t _ =>
      t.fleet = s.fleet ∨
        (s.IsAdmin actorId ∧ ∃ d ∈ s.fleet.stations, d.id = deviceId ∧
          Settled s.fleet t.fleet d .revoked)) s := by
  apply requireAdmin_then (fun _ => Or.inl rfl)
  intro _ _ hadmin
  apply read_then rfl rfl
  apply okOr_then
  · intro device hfound
    obtain ⟨hmem, hid⟩ := getById_eq_some hfound
    apply failIf_then (fun _ => Or.inl rfl)
    intro _
    apply teardownDevice_then hmem (fun _ => Or.inl rfl)
    intro t hsettled
    apply wp_audit
    exact Or.inr ⟨hadmin, stationOf device, List.mem_map_of_mem hmem, hid, hsettled⟩
  · intro _
    exact Or.inl rfl

theorem revokeDevice_wp (actorId deviceId : Uuid) :
    wp perform (Admin.revokeDevice actorId deviceId) (fun t _ =>
      t.fleet = s.fleet ∨
        ∃ d ∈ s.fleet.stations, Settled s.fleet t.fleet d .revoked) s := by
  refine wp_mono (revokeDevice_settles actorId deviceId) ?_
  rintro t _ (h | ⟨_, d, hd, _, hsettled⟩)
  · exact Or.inl h
  · exact Or.inr ⟨d, hd, hsettled⟩

/-- The active devices of an account. -/
def Fleet.activeOf (f : Fleet) (userId : Uuid) : List Station :=
  f.stations.filter fun d => d.userId == userId && d.status == .active

theorem removePeerIfActive_then {β : Type} {Q : Sys → Except ApiError β → Prop}
    {d : Device} {k : Unit → Handler β}
    (h : wp perform (k ()) Q
      { s with interface :=
          if d.status == .active then s.interface.removePeer d.publicKey else s.interface }) :
    wp perform (Admin.removePeerIfActive d >>= k) Q s := by
  apply wp_bind
  unfold Admin.removePeerIfActive
  split
  · rename_i hactive
    apply call_then
    rw [if_pos hactive] at h
    exact h
  · rename_i hidle
    rw [if_neg hidle] at h
    exact h

/-- The removal loop drops exactly the peers of the active devices. -/
theorem removeActivePeers_wp (ds : List Device) (s : Sys) :
    wp perform (Admin.removeActivePeers ds) (fun t _ =>
      t.db = s.db ∧
        Drops ((ds.map stationOf).filter fun d => d.status == .active)
          s.interface t.interface) s := by
  induction ds generalizing s with
  | nil =>
      exact ⟨rfl, drops_nil _⟩
  | cons d ds ih =>
      apply removePeerIfActive_then
      refine wp_mono (ih _) ?_
      rintro t _ ⟨hdb, hdrops⟩
      refine ⟨hdb, ?_⟩
      by_cases hactive : d.status = .active
      · have hfilter : ((d :: ds).map stationOf).filter (fun e => e.status == .active) =
            stationOf d :: (ds.map stationOf).filter fun e => e.status == .active := by
          simp [stationOf, hactive]
        rw [hfilter]
        apply drops_cons
        rw [if_pos (by simp [hactive])] at hdrops
        exact hdrops
      · have hfilter : ((d :: ds).map stationOf).filter (fun e => e.status == .active) =
            (ds.map stationOf).filter fun e => e.status == .active := by
          simp [stationOf, hactive]
        rw [hfilter]
        simpa [hactive] using hdrops

/-- The active devices among those that `list_for_user` returns. -/
theorem active_listForUser (userId : Uuid) (db : Db) :
    ((Db.Devices.listForUser userId db).map stationOf).filter (fun d => d.status == .active) =
      (db.devices.map stationOf).filter fun d => d.userId == userId && d.status == .active := by
  unfold Db.Devices.listForUser
  rw [List.filter_map, List.filter_map, List.filter_filter]
  congr 1
  apply List.filter_congr
  intro d _
  rw [Bool.eq_iff_iff]
  simp only [stationOf, Function.comp_apply, Bool.and_eq_true, beq_iff_eq, bne_iff_ne]
  constructor
  · rintro ⟨hactive, huser, _⟩
    exact ⟨huser, hactive⟩
  · rintro ⟨huser, hactive⟩
    exact ⟨hactive, huser, by simp [hactive]⟩

theorem removeUserPeers_wp (userId : Uuid) (s : Sys) :
    wp perform (Admin.removeUserPeers userId) (fun t _ =>
      t.db = s.db ∧ Drops (s.fleet.activeOf userId) s.interface t.interface) s := by
  apply tryRead_then rfl rfl
  refine wp_mono (removeActivePeers_wp _ s) ?_
  rintro t _ ⟨hdb, hdrops⟩
  rw [active_listForUser] at hdrops
  exact ⟨hdb, hdrops⟩

theorem cachedKeepalive_then {β : Type} {Q : Sys → Except ApiError β → Prop}
    {cache : List (Uuid × Nat)} {serverId : Uuid}
    {k : Nat × List (Uuid × Nat) → Handler β}
    (h : ∀ found, wp perform (k found) Q s) :
    wp perform (Admin.cachedKeepalive cache serverId >>= k) Q s := by
  unfold Admin.cachedKeepalive
  cases cache.lookup serverId with
  | some v =>
      exact h _
  | none =>
      apply wp_bind
      apply lookupKeepalive_then
      intro v
      exact h _

/-- The restore loop installs exactly the peers of the active devices; the
cache only saves lookups. -/
theorem restoreActivePeers_wp (ds : List Device) (cache : List (Uuid × Nat)) (s : Sys) :
    wp perform (Admin.restoreActivePeers cache ds) (fun t _ =>
      t.db = s.db ∧
        Installs ((ds.map stationOf).filter fun d => d.status == .active)
          s.interface t.interface) s := by
  induction ds generalizing s cache with
  | nil =>
      exact ⟨rfl, installs_nil _⟩
  | cons d ds ih =>
      unfold Admin.restoreActivePeers
      by_cases hactive : d.status = .active
      · have hfilter : ((d :: ds).map stationOf).filter (fun e => e.status == .active) =
            stationOf d :: (ds.map stationOf).filter fun e => e.status == .active := by
          simp [stationOf, hactive]
        rw [if_neg (by simp [hactive])]
        apply cachedKeepalive_then
        intro found
        apply call_then
        refine wp_mono (ih _ _) ?_
        rintro t _ ⟨hdb, hinstalls⟩
        rw [hfilter]
        exact ⟨hdb, installs_cons hinstalls⟩
      · have hfilter : ((d :: ds).map stationOf).filter (fun e => e.status == .active) =
            (ds.map stationOf).filter fun e => e.status == .active := by
          simp [stationOf, hactive]
        rw [if_pos (by simp [hactive]), hfilter]
        exact ih _ _

theorem restoreUserPeers_wp (userId : Uuid) (s : Sys) :
    wp perform (Admin.restoreUserPeers userId) (fun t _ =>
      t.db = s.db ∧ Installs (s.fleet.activeOf userId) s.interface t.interface) s := by
  apply tryRead_then rfl rfl
  refine wp_mono (restoreActivePeers_wp _ _ s) ?_
  rintro t _ ⟨hdb, hinstalls⟩
  rw [active_listForUser] at hinstalls
  exact ⟨hdb, hinstalls⟩

/-- The interface after a status change from `prior` to `status`. -/
def SyncedPeers (f f' : Fleet) (userId : Uuid) (prior status : UserStatus) : Prop :=
  if status = .suspended ∧ prior ≠ .suspended then
    Drops (f.activeOf userId) f.interface f'.interface
  else if status = .active ∧ prior = .suspended then
    Installs (f.activeOf userId) f.interface f'.interface
  else f'.interface = f.interface

/-- The status of one present account changes. -/
structure StatusChanged (f f' : Fleet) (a : Account) (status : UserStatus) : Prop where
  mem : a ∈ f.accounts
  present : a.present = true
  verified : a.status ≠ .pendingVerification
  allowed : status ≠ .pendingVerification
  accounts_eq : f'.accounts =
    updateWhere (fun b => b.id == a.id) (fun _ => { a with status := status }) f.accounts
  stations_eq : f'.stations = f.stations
  synced : SyncedPeers f f' a.id a.status status

theorem syncPeers_wp (userId : Uuid) (prior status : UserStatus) (s : Sys) :
    wp perform (Admin.syncPeers userId prior status) (fun t _ =>
      t.db = s.db ∧ SyncedPeers s.fleet t.fleet userId prior status) s := by
  unfold Admin.syncPeers SyncedPeers
  by_cases hsuspend : status = .suspended ∧ prior ≠ .suspended
  · rw [if_pos (by simpa using hsuspend)]
    simp only [if_pos hsuspend]
    exact removeUserPeers_wp userId s
  · rw [if_neg (by simpa using hsuspend)]
    simp only [if_neg hsuspend]
    by_cases hactivate : status = .active ∧ prior = .suspended
    · rw [if_pos (by simpa using hactivate)]
      simp only [if_pos hactivate]
      exact restoreUserPeers_wp userId s
    · rw [if_neg (by simpa using hactivate)]
      simp only [if_neg hactivate]
      exact ⟨rfl, rfl⟩

/-- A statement that names one stored user. -/
theorem accounts_of_update {db db' : Db} {u₀ : User} {p : User → Bool} {g : User → User}
    {n : Nat}
    (hmem : u₀ ∈ db.users) (hp : ∀ u ∈ db.users, p u = true ↔ u.id = u₀.id)
    (h : Db.updateUsers p g db = .ok (n, db')) :
    db'.devices = db.devices ∧
      db'.users.map accountOf =
        updateWhere (fun a => a.id == (accountOf u₀).id) (fun _ => accountOf (g u₀))
          (db.users.map accountOf) := by
  obtain ⟨htables, _⟩ := Db.updateUsers_eq_ok h
  have husers : db'.users = updateWhere p g db.users := by
    rw [htables]
  refine ⟨by rw [htables], ?_⟩
  rw [husers]
  apply map_updateWhere_comm
  · intro u hu
    rw [Bool.eq_iff_iff, hp u hu]
    simp [accountOf]
  · intro u hu hpu
    rw [db.userId_unique hu hmem ((hp u hu).mp hpu)]

theorem findUser_eq_some {db : Db} {id : Uuid} {u : User}
    (h : Db.Users.findById id db = some u) :
    u ∈ db.users ∧ u.id = id ∧ u.deletedAt = none := by
  have hmem : u ∈ db.users := List.mem_of_find?_eq_some h
  have hp := List.find?_some h
  simp only [Db.Users.present, Bool.and_eq_true, beq_iff_eq,
    Option.isNone_iff_eq_none] at hp
  exact ⟨hmem, hp.1, hp.2⟩

/-- `PUT /admin/users/{id}/status`. -/
theorem setUserStatus_wp (actorId targetId : Uuid) (status : UserStatus) :
    wp perform (Admin.setUserStatus actorId targetId status) (fun t _ =>
      t.fleet = s.fleet ∨
        (s.IsAdmin actorId ∧ targetId ≠ actorId ∧
          ∃ a, a.id = targetId ∧ StatusChanged s.fleet t.fleet a status)) s := by
  apply requireAdmin_then (fun _ => Or.inl rfl)
  intro actor hactor hadmin
  apply failIf_then (fun _ => Or.inl rfl)
  intro hself
  have hother : targetId ≠ actorId := by
    simpa [hactor] using hself
  apply read_then rfl rfl
  apply okOr_then
  · intro target hfound
    obtain ⟨hmem, hid, hpresent⟩ := findUser_eq_some hfound
    apply failIf_then (fun _ => Or.inl rfl)
    intro hpending
    simp only [Bool.or_eq_false_iff, beq_eq_false_iff_ne] at hpending
    apply write_then
    · intro n db' hrun
      have hp : ∀ u ∈ s.db.users,
          Db.Users.present targetId u = true ↔ u.id = target.id := by
        intro u hu
        simp only [Db.Users.present, Bool.and_eq_true, beq_iff_eq,
          Option.isNone_iff_eq_none]
        constructor
        · rintro ⟨huid, _⟩
          exact huid.trans hid.symm
        · intro huid
          rw [s.db.userId_unique hu hmem huid]
          exact ⟨hid, hpresent⟩
      obtain ⟨hdevices, haccounts⟩ := accounts_of_update hmem hp hrun
      apply failIf_then
      · intro hzero
        have hpos := rowsAffected_pos hmem ((hp target hmem).mpr rfl)
        obtain ⟨_, hn⟩ := Db.updateUsers_eq_ok hrun
        have hn0 : n = (0 : Nat) := eq_of_beq (α := Nat) hzero
        rw [hn0] at hn
        rw [← hn] at hpos
        exact absurd hpos (Nat.lt_irrefl 0)
      · intro _
        have hdone : ∀ t : Sys, t.db = db' →
            SyncedPeers ({ s with db := db' } : Sys).fleet t.fleet targetId
              target.status status →
            t.fleet = s.fleet ∨
              (s.IsAdmin actorId ∧ targetId ≠ actorId ∧
                ∃ a, a.id = targetId ∧ StatusChanged s.fleet t.fleet a status) := by
          intro t hdb hsynced
          right
          refine ⟨hadmin, hother, accountOf target, hid, List.mem_map_of_mem hmem, ?_,
            hpending.1, hpending.2, ?_, ?_, ?_⟩
          · simp [accountOf, hpresent]
          · simp only [Sys.fleet, hdb, haccounts]
            rfl
          · simp only [Sys.fleet, hdb, hdevices]
          · have hactiveOf : ({ s with db := db' } : Sys).fleet.activeOf targetId =
                s.fleet.activeOf targetId := by
              simp only [Fleet.activeOf, Sys.fleet, hdevices]
            rw [show (accountOf target).id = targetId from hid]
            unfold SyncedPeers at hsynced ⊢
            rw [hactiveOf] at hsynced
            exact hsynced
        refine wp_bind_of (syncPeers_wp targetId target.status status _) ?_ ?_
        · rintro t _ ⟨hdb, hsynced⟩
          exact wp_audit (hdone t hdb hsynced)
        · rintro t _ ⟨hdb, hsynced⟩
          exact hdone t hdb hsynced
    · intro e
      exact Or.inl rfl
  · intro _
    exact Or.inl rfl

/-- The cleanup loop drops exactly the peers of the active devices. -/
theorem forgetDevices_wp (releaser : Releaser) (ds : List Device) (s : Sys) :
    wp perform (Admin.forgetDevices releaser ds) (fun t _ =>
      t.db = s.db ∧
        Drops ((ds.map stationOf).filter fun d => d.status == .active)
          s.interface t.interface) s := by
  induction ds generalizing s with
  | nil =>
      exact ⟨rfl, drops_nil _⟩
  | cons d ds ih =>
      apply removePeerIfActive_then
      apply releaseAddress_then
      intro t hdb hinterface
      refine wp_mono (ih t) ?_
      rintro t' _ ⟨hdb', hdrops⟩
      rw [hinterface] at hdrops
      refine ⟨hdb'.trans hdb, ?_⟩
      by_cases hactive : d.status = .active
      · have hfilter : ((d :: ds).map stationOf).filter (fun e => e.status == .active) =
            stationOf d :: (ds.map stationOf).filter fun e => e.status == .active := by
          simp [stationOf, hactive]
        rw [hfilter]
        apply drops_cons
        simp only [if_pos (show (d.status == .active) = true by simp [hactive])] at hdrops
        exact hdrops
      · have hfilter : ((d :: ds).map stationOf).filter (fun e => e.status == .active) =
            (ds.map stationOf).filter fun e => e.status == .active := by
          simp [stationOf, hactive]
        rw [hfilter]
        simp only [if_neg (show ¬(d.status == .active) = true by simp [hactive])] at hdrops
        exact hdrops

/-- An account and its devices are gone; the peers of its active devices are
dropped. -/
structure Erased (f f' : Fleet) (userId : Uuid) : Prop where
  accounts_eq : f'.accounts = f.accounts.filter fun a => a.id != userId
  stations_eq : f'.stations = f.stations.filter fun d => d.userId != userId
  dropped : Drops (f.activeOf userId) f.interface f'.interface

theorem keepLastAdmin_then {β : Type} {Q : Sys → Except ApiError β → Prop}
    {target : User} {k : Unit → Handler β}
    (herr : ∀ e, Q s (.error e)) (hok : wp perform (k ()) Q s) :
    wp perform (Admin.keepLastAdmin target >>= k) Q s := by
  apply wp_bind
  unfold Admin.keepLastAdmin Admin.keepAdminFloor
  split
  · apply read_then rfl rfl
    unfold failIf
    split
    · exact herr _
    · exact hok
  · exact hok

/-- `DELETE /admin/users/{id}`. -/
theorem deleteUser_wp (actorId targetId : Uuid) :
    wp perform (Admin.deleteUser actorId targetId) (fun t _ =>
      t.fleet = s.fleet ∨
        (s.IsAdmin actorId ∧ targetId ≠ actorId ∧ Erased s.fleet t.fleet targetId)) s := by
  apply requireAdmin_then (fun _ => Or.inl rfl)
  intro actor hactor hadmin
  apply failIf_then (fun _ => Or.inl rfl)
  intro hself
  have hother : targetId ≠ actorId := by
    simpa [hactor] using hself
  apply read_then rfl rfl
  apply okOr_then
  · intro target hfound
    obtain ⟨_, hid, _⟩ := findUser_eq_some hfound
    apply keepLastAdmin_then (fun _ => Or.inl rfl)
    apply tryRead_then rfl rfl
    apply write_then
    · intro _ db' hrun
      rw [hid] at hrun
      obtain ⟨htables, _⟩ := Db.write_return_eq_ok hrun
      have husers : db'.users = s.db.users.filter fun u => u.id != targetId := by
        rw [htables]
        rfl
      have hdevices : db'.devices = s.db.devices.filter fun d => d.userId != targetId := by
        rw [htables]
        rfl
      have hdone : ∀ t : Sys, t.db = db' →
          Drops (((Db.Devices.listForUser target.id s.db).map stationOf).filter
            fun d => d.status == .active) s.interface t.interface →
          t.fleet = s.fleet ∨
            (s.IsAdmin actorId ∧ targetId ≠ actorId ∧ Erased s.fleet t.fleet targetId) := by
        intro t hdb hdrops
        right
        refine ⟨hadmin, hother, ?_⟩
        rw [active_listForUser, hid] at hdrops
        refine ⟨?_, ?_, hdrops⟩
        · simp only [Sys.fleet, hdb, husers, List.filter_map]
          rfl
        · simp only [Sys.fleet, hdb, hdevices, List.filter_map]
          rfl
      refine wp_bind_of (forgetDevices_wp .deleteUser _ _) ?_ ?_
      · rintro t _ ⟨hdb, hdrops⟩
        exact wp_audit (hdone t hdb hdrops)
      · rintro t _ ⟨hdb, hdrops⟩
        exact hdone t hdb hdrops
    · intro e
      exact Or.inl rfl
  · intro _
    exact Or.inl rfl

/-- An account is soft-deleted and its devices are revoked; the interface is
left alone. -/
structure SoftDeleted (f f' : Fleet) (userId : Uuid) : Prop where
  accounts_eq : f'.accounts =
    updateWhere (fun a => a.id == userId)
      (fun a => { a with status := .deleted, present := false }) f.accounts
  stations_eq : f'.stations =
    updateWhere (fun d => d.userId == userId) (fun d => { d with status := .revoked })
      f.stations
  interface_eq : f'.interface = f.interface

/-- `DELETE /me/account`.  The devices are listed after the transaction has
revoked them, so the cleanup loop runs over the empty list. -/
theorem deleteAccount_wp (userId : Uuid) (now : Int) :
    wp perform (Me.deleteAccount userId now) (fun t _ =>
      t.fleet = s.fleet ∨ SoftDeleted s.fleet t.fleet userId) s := by
  apply currentUser_then (fun _ => Or.inl rfl)
  intro u _ huid _ _
  apply write_then
  · intro _ db' hrun
    rw [huid] at hrun
    obtain ⟨husers, hdevices⟩ := Db.Users.softDelete_eq_ok hrun
    have hempty : Db.Devices.listForUser userId db' = [] := by
      unfold Db.Devices.listForUser
      rw [hdevices, List.filter_eq_nil_iff]
      intro d hd
      rw [mem_updateWhere] at hd
      obtain ⟨r, _, rfl⟩ := hd
      by_cases hr : r.userId = userId
      · simp [hr]
      · simp [hr]
    apply audit_then
    apply tryRead_then rfl rfl
    rw [huid, hempty]
    apply wp_pure
    right
    refine ⟨?_, ?_, rfl⟩
    · simp only [Sys.fleet, husers]
      apply map_updateWhere_comm
      · intro v _
        rfl
      · intro v _ _
        rfl
    · simp only [Sys.fleet, hdevices]
      apply map_updateWhere_comm
      · intro d _
        rfl
      · intro d _ _
        rfl
  · intro e
    exact Or.inl rfl

/-- `POST /admin/servers/{id}/rotate-keys` recreates the interface, and it is
empty afterwards. -/
theorem rotateServerKeys_wp (actorId serverId : Uuid) (privateKey publicKey : String) :
    wp perform (Admin.rotateServerKeys actorId serverId privateKey publicKey) (fun t _ =>
      t.fleet = s.fleet ∨
        (s.IsAdmin actorId ∧ serverId ∈ s.db.servers.map Server.id ∧
          t.fleet = { s.fleet with interface := Interface.empty })) s := by
  apply requireAdmin_then (fun _ => Or.inl rfl)
  intro _ _ hadmin
  apply read_then rfl rfl
  apply okOr_then
  · intro server hfound
    have hserver : serverId ∈ s.db.servers.map Server.id := by
      refine List.mem_map.mpr ⟨server, List.mem_of_find?_eq_some hfound, ?_⟩
      simpa using List.find?_some hfound
    apply encrypt_then
    apply write_then
    · intro _ db' hrun
      have htables := Db.updateServers_eq_ok hrun
      have husers : db'.users = s.db.users := by
        rw [htables]
      have hdevices : db'.devices = s.db.devices := by
        rw [htables]
      apply call_then
      apply wp_audit
      right
      refine ⟨hadmin, hserver, ?_⟩
      simp only [Sys.fleet, ApiCmd.sem, husers, hdevices]
    · intro e
      exact Or.inl rfl
  · intro _
    exact Or.inl rfl

end Accounts

section Sweep

/-- One step of the quota sweep: a paused device of an active account is
resumed, or an active device is paused. -/
inductive SweepStep (f f' : Fleet) : Prop
  | resume (d : Station) :
      f.ActiveOwner d → Settled f f' d .active → SweepStep f f'
  | pause (d : Station) :
      Settled f f' d .paused → SweepStep f f'

/-- Any number of such steps, each between fleets of real states. -/
inductive Swept : Sys → Sys → Prop
  | refl {s t : Sys} : t.fleet = s.fleet → Swept s t
  | step {s t u : Sys} : Swept s t → SweepStep t.fleet u.fleet → Swept s u

theorem Swept.congr {s t u : Sys} (h : Swept s t) (hu : u.fleet = t.fleet) : Swept s u := by
  cases h with
  | refl hfleet =>
      exact .refl (hu.trans hfleet)
  | step hswept hstep =>
      exact .step hswept (by rw [hu]; exact hstep)

/-- The rows that a loop of the sweep works on are the stored ones, up to their
status and quota columns. -/
def Remembers (db : Db) (c : Device) : Prop :=
  ∀ d ∈ db.devices, d.id = c.id →
    d.publicKey = c.publicKey ∧ d.allocatedIp = c.allocatedIp ∧ d.userId = c.userId

/-- A row whose status a sweep step may change. -/
theorem sweep_update {db db' : Db} {p : Device → Bool} {g : Device → Device} {n : Nat}
    {c : Device} (hid : ∀ d, p d = true → d.id = c.id)
    (h : Db.updateDevices p g db = .ok (n, db')) (hn : n ≠ 0) :
    ∃ d ∈ db.devices, p d = true ∧ d.id = c.id ∧ db'.users = db.users ∧
      db'.devices.map stationOf =
        updateWhere (fun e => e.id == (stationOf d).id) (fun _ => stationOf (g d))
          (db.devices.map stationOf) := by
  obtain ⟨_, haffected⟩ := Db.updateDevices_eq_ok h
  have hne : db.devices.filter p ≠ [] := by
    intro hnil
    rw [rowsAffected, hnil] at haffected
    exact hn haffected
  obtain ⟨d, hd⟩ := List.exists_mem_of_ne_nil _ hne
  obtain ⟨hmem, hp⟩ := List.mem_filter.mp hd
  have hwhere : ∀ e ∈ db.devices, p e = true ↔ e.id = d.id := by
    intro e he
    constructor
    · intro hpe
      rw [hid e hpe, hid d hp]
    · intro heid
      rw [db.deviceId_unique he hmem heid]
      exact hp
  obtain ⟨_, husers, hstations⟩ := stations_of_update hmem hwhere h
  exact ⟨d, hmem, hp, hid d hp, husers, hstations⟩

/-- A change of status columns keeps what the loops remember. -/
theorem Remembers.update {db db' : Db} {p : Device → Bool} {g : Device → Device} {n : Nat}
    {c : Device} (hc : Remembers db c) (h : Db.updateDevices p g db = .ok (n, db'))
    (hg : ∀ d, (g d).id = d.id ∧ (g d).publicKey = d.publicKey ∧
      (g d).allocatedIp = d.allocatedIp ∧ (g d).userId = d.userId) :
    Remembers db' c := by
  obtain ⟨htables, _⟩ := Db.updateDevices_eq_ok h
  have hdevices : db'.devices = updateWhere p g db.devices := by
    rw [htables]
  intro d' hd' hid
  rw [hdevices, mem_updateWhere] at hd'
  obtain ⟨d, hd, rfl⟩ := hd'
  obtain ⟨h₁, h₂, h₃, h₄⟩ := hg d
  by_cases hp : p d = true
  · rw [if_pos hp] at hid ⊢
    rw [h₁] at hid
    rw [h₂, h₃, h₄]
    exact hc d hd hid
  · rw [if_neg hp] at hid ⊢
    exact hc d hd hid

/-- A stored row is remembered. -/
theorem remembers_of_mem {db : Db} {c : Device} (hc : c ∈ db.devices) : Remembers db c := by
  intro d hd hid
  rw [db.deviceId_unique hd hc hid]
  exact ⟨rfl, rfl, rfl⟩

/-- A sweep statement that found no row changes nothing in the fleet. -/
theorem fleet_of_unaffected {s : Sys} {db' : Db} {p : Device → Bool} {g : Device → Device}
    (h : Db.updateDevices p g s.db = .ok (0, db')) :
    ({ s with db := db' } : Sys).fleet = s.fleet := by
  obtain ⟨htables, hn⟩ := Db.updateDevices_eq_ok h
  have hdevices : db'.devices = s.db.devices := by
    rw [htables]
    exact updateWhere_of_unaffected hn.symm
  have husers : db'.users = s.db.users := by
    rw [htables]
  exact fleet_congr husers (by rw [hdevices]) rfl

/-- One device changes its status in the sweep. -/
theorem settled_of_sweep (status : DeviceStatus) (interface' : Interface)
    {s : Sys} {db' : Db} {p : Device → Bool} {g : Device → Device} {n : Nat} {c : Device}
    (hc : Remembers s.db c) (hid : ∀ d, p d = true → d.id = c.id)
    (hg : ∀ d, stationOf (g d) = { stationOf d with status := status })
    (h : Db.updateDevices p g s.db = .ok (n, db')) (hn : n ≠ 0)
    (hframe : ∀ k, k ≠ c.publicKey → interface' k = s.interface k)
    (hserved : status = .active →
      ∃ peer, interface' c.publicKey = some peer ∧ peer.allowedIp = c.allocatedIp)
    (hdropped : status ≠ .active → interface' c.publicKey = none) :
    ∃ d : Station, d.userId = c.userId ∧
      Settled s.fleet ({ s with db := db', interface := interface' } : Sys).fleet d status := by
  obtain ⟨d, hmem, _, hdid, husers, hstations⟩ := sweep_update hid h hn
  obtain ⟨hkey, hip, huser⟩ := hc d hmem hdid
  rw [hg d] at hstations
  refine ⟨stationOf d, huser, touch_status _ hmem husers hstations ?_, ?_, ?_⟩
  · intro k hk
    exact hframe k (by rw [← hkey]; exact hk)
  · intro hactive
    obtain ⟨peer, hpeer, haddress⟩ := hserved hactive
    refine ⟨peer, ?_, haddress.trans hip.symm⟩
    rw [← hkey] at hpeer
    exact hpeer
  · intro hidle
    have hnone := hdropped hidle
    rw [← hkey] at hnone
    exact hnone

theorem activeOwner_congr {s t : Sys} {d d' : Station} (husers : t.db.users = s.db.users)
    (huser : d'.userId = d.userId) (h : s.fleet.ActiveOwner d) :
    t.fleet.ActiveOwner d' := by
  unfold Fleet.ActiveOwner at h ⊢
  simp only [Sys.fleet, husers, huser] at h ⊢
  exact h

theorem resumeAll_wp (s₀ : Sys) (ds : List Device) (cache : List (Uuid × Nat)) (s : Sys)
    (hswept : Swept s₀ s)
    (hds : ∀ c ∈ ds, Remembers s.db c ∧ s.fleet.ActiveOwner (stationOf c)) :
    wp perform (Quota.resumeAll cache ds) (fun t _ => Swept s₀ t) s := by
  induction ds generalizing s cache with
  | nil =>
      exact hswept
  | cons c ds ih =>
      obtain ⟨hc, howner⟩ := hds c (by simp)
      apply write_then
      · intro n db' hrun
        have husers : db'.users = s.db.users := by
          rw [(Db.updateDevices_eq_ok hrun).1]
        have hrest : ∀ (t : Sys), t.db = db' → ∀ e ∈ ds,
            Remembers t.db e ∧ t.fleet.ActiveOwner (stationOf e) := by
          intro t htdb e he
          obtain ⟨he₁, he₂⟩ := hds e (List.mem_cons_of_mem _ he)
          rw [htdb]
          refine ⟨he₁.update hrun (fun _ => ⟨rfl, rfl, rfl, rfl⟩), ?_⟩
          exact activeOwner_congr (by rw [htdb, husers]) rfl he₂
        by_cases hn : n = (0 : Nat)
        · rw [if_pos (by rw [hn]; rfl)]
          rw [hn] at hrun
          exact ih _ _ (hswept.congr (fleet_of_unaffected hrun)) (hrest _ rfl)
        · rw [if_neg (fun h => hn (eq_of_beq (α := Nat) h))]
          apply cachedKeepalive_then
          intro found
          apply call_then
          refine ih _ _ ?_ (hrest _ rfl)
          obtain ⟨d, huser, hsettled⟩ := settled_of_sweep .active
            (s.interface.addPeer c.publicKey ⟨c.allocatedIp, none, found.1⟩)
            hc (fun d hd => by simp only [Bool.and_eq_true, beq_iff_eq] at hd; exact hd.1.1)
            (fun _ => rfl) hrun hn
            (fun k hk => Interface.addPeer_of_ne hk)
            (fun _ => ⟨_, Interface.addPeer_self _ _ _, rfl⟩) (by simp)
          exact .step hswept (.resume d (activeOwner_congr rfl huser howner) hsettled)
      · intro e
        exact hswept

theorem pauseAll_wp (s₀ : Sys) (ds : List Device) (s : Sys)
    (hswept : Swept s₀ s) (hds : ∀ c ∈ ds, Remembers s.db c) :
    wp perform (Quota.pauseAll ds) (fun t _ => Swept s₀ t) s := by
  induction ds generalizing s with
  | nil =>
      exact hswept
  | cons c ds ih =>
      have hc := hds c (by simp)
      apply write_then
      · intro n db' hrun
        have hrest : ∀ (t : Sys), t.db = db' → ∀ e ∈ ds, Remembers t.db e := by
          intro t htdb e he
          rw [htdb]
          exact (hds e (List.mem_cons_of_mem _ he)).update hrun
            (fun _ => ⟨rfl, rfl, rfl, rfl⟩)
        by_cases hn : n = (0 : Nat)
        · rw [if_pos (by rw [hn]; rfl)]
          rw [hn] at hrun
          exact ih _ (hswept.congr (fleet_of_unaffected hrun)) (hrest _ rfl)
        · rw [if_neg (fun h => hn (eq_of_beq (α := Nat) h))]
          apply call_then
          refine ih _ ?_ (hrest _ rfl)
          obtain ⟨d, _, hsettled⟩ := settled_of_sweep .paused
            (s.interface.removePeer c.publicKey)
            hc (fun d hd => by simp only [Bool.and_eq_true, beq_iff_eq] at hd; exact hd.1)
            (fun _ => rfl) hrun hn
            (fun k hk => Interface.removePeer_of_ne hk)
            (by simp) (fun _ => Interface.removePeer_self _ _)
          exact .step hswept (.pause d hsettled)
      · intro e
        exact hswept

/-- The join of the candidate queries finds an active owner. -/
theorem activeOwner_of_join {s : Sys} {d : Device} {p : User → Bool}
    (h : Db.Quota.activeOwner s.db d p = true) :
    s.fleet.ActiveOwner (stationOf d) := by
  obtain ⟨u, hu, hjoin⟩ := List.any_eq_true.mp h
  simp only [Bool.and_eq_true, beq_iff_eq, Option.isNone_iff_eq_none] at hjoin
  obtain ⟨⟨⟨hid, hactive⟩, hpresent⟩, _⟩ := hjoin
  exact activeOwner_of_user hu hid hactive hpresent

/-- A run of the quota sweep is a sequence of sweep steps. -/
theorem runOnce_wp (now : Int) (s : Sys) :
    wp perform (Quota.runOnce now) (fun t _ => Swept s t) s := by
  apply write_then
  · intro _ db₁ hrun₁
    obtain ⟨htables₁, _⟩ := Db.updateUsers_eq_ok hrun₁
    have hfleet₁ : ∀ t : Sys, t.db = db₁ → t.interface = s.interface →
        t.fleet = s.fleet := by
      intro t hdb hinterface
      have husers : db₁.users.map accountOf = s.db.users.map accountOf := by
        rw [htables₁]
        apply map_updateWhere
        intro u
        rfl
      have hdevices : db₁.devices = s.db.devices := by
        rw [htables₁]
      simp only [Sys.fleet, hdb, hinterface, husers, hdevices]
    apply write_then
    · intro _ db₂ hrun₂
      obtain ⟨husers₂, hstations₂⟩ := stations_of_unseen hrun₂ (fun _ => rfl)
      have hstart : ∀ t : Sys, t.db = db₂ → t.interface = s.interface →
          t.fleet = s.fleet := by
        intro t hdb hinterface
        rw [← hfleet₁ { s with db := db₁ } rfl rfl]
        exact fleet_congr (by rw [hdb, husers₂]) (by rw [hdb, hstations₂]) hinterface
      apply read_then rfl rfl
      refine wp_bind_of (resumeAll_wp s _ _ _ (.refl (hstart _ rfl rfl)) ?_) ?_ ?_
      · intro c hc
        obtain ⟨hmem, hcond⟩ := List.mem_filter.mp hc
        simp only [Bool.and_eq_true] at hcond
        exact ⟨remembers_of_mem hmem, activeOwner_of_join hcond.2⟩
      · intro t _ hswept
        apply read_then rfl rfl
        apply pauseAll_wp s _ _ hswept
        intro c hc
        exact remembers_of_mem (List.mem_filter.mp hc).1
      · intro t _ hswept
        exact hswept
    · intro e
      exact .refl (hfleet₁ _ rfl rfl)
  · intro e
    exact .refl rfl

end Sweep

section Restart

variable {s : Sys}

/-- The accounts after the bootstrap administrator is in place. -/
def bootAccounts (cfg : Bootstrap.Config) (db : Db) : List Account :=
  if Db.Users.countActiveAdmins db = 0 then
    match Db.Users.findByEmail (.address cfg.bootstrapEmail) db with
    | some user =>
        updateWhere (fun a => a.id == user.id) (fun a => { a with status := .active })
          (db.users.map accountOf)
    | none => db.users.map accountOf ++ [⟨cfg.newUserId, .active, true⟩]
  else db.users.map accountOf

theorem ensureAdmin_then {β : Type} {Q : Sys → Except ApiError β → Prop}
    {cfg : Bootstrap.Config} {k : Unit → Handler β}
    (herr : ∀ (t : Sys) e, Q t (.error e))
    (hok : ∀ t : Sys, t.db.users.map accountOf = bootAccounts cfg s.db →
      t.db.devices = s.db.devices → t.interface = s.interface → t.up = s.up →
      wp perform (k ()) Q t) :
    wp perform (Bootstrap.ensureAdmin cfg >>= k) Q s := by
  apply wp_bind
  apply read_then rfl rfl
  by_cases hadmins : Db.Users.countActiveAdmins s.db = 0
  · rw [if_pos (by rw [hadmins]; rfl)]
    apply failIf_then
    · intro _
      exact herr _ _
    · intro _
      apply read_then rfl rfl
      cases hfound : Db.Users.findByEmail (.address cfg.bootstrapEmail) s.db with
      | some user =>
          apply write_then
          · intro _ db' hrun
            obtain ⟨htables, _⟩ := Db.updateUsers_eq_ok hrun
            apply wp_pure
            refine hok _ ?_ ?_ rfl rfl
            · simp only [bootAccounts, hadmins, hfound, if_true]
              rw [htables]
              apply map_updateWhere_comm
              · intro u _
                rfl
              · intro u _ _
                rfl
            · show db'.devices = s.db.devices
              rw [htables]
          · intro e
            exact herr _ _
      | none =>
          apply write_then
          · intro _ db' hrun
            obtain ⟨htables, _⟩ := Db.write_return_eq_ok hrun
            apply wp_pure
            refine hok _ ?_ ?_ rfl rfl
            · simp only [bootAccounts, hadmins, hfound, if_true]
              rw [htables]
              exact List.map_append
            · show db'.devices = s.db.devices
              rw [htables]
          · intro e
            exact herr _ _
  · rw [if_neg (fun h => hadmins (eq_of_beq (α := Nat) h))]
    exact hok s (by simp [bootAccounts, hadmins]) rfl rfl rfl

/-- The default server: at most the table of servers changes. -/
theorem ensureDefaultServer_then {β : Type} {Q : Sys → Except ApiError β → Prop}
    {cfg : Bootstrap.Config} {k : Unit → Handler β}
    (herr : ∀ (t : Sys) e, Q t (.error e))
    (hok : ∀ t : Sys, t.db.users = s.db.users → t.db.devices = s.db.devices →
      t.interface = s.interface → t.up = s.up → wp perform (k ()) Q t) :
    wp perform (Bootstrap.ensureDefaultServer cfg >>= k) Q s := by
  apply wp_bind
  apply read_then rfl rfl
  cases Db.Servers.defaultKeyState s.db with
  | none =>
      apply encrypt_then
      apply write_then
      · intro _ db' hrun
        obtain ⟨htables, _⟩ := Db.write_return_eq_ok hrun
        apply wp_pure
        exact hok _ (by rw [htables]) (by rw [htables]) rfl rfl
      · intro e
        exact herr _ _
  | some server =>
      have hwrite : ∀ (p : Server → Bool) (g : Server → Server) (db' : Db),
          Db.updateServers p g s.db = .ok ((), db') →
          db'.users = s.db.users ∧ db'.devices = s.db.devices := by
        intro p g db' hrun
        have htables := Db.updateServers_eq_ok hrun
        exact ⟨by rw [htables], by rw [htables]⟩
      cases hkey : server.privateKeyEncrypted with
      | some encrypted =>
          simp only [hkey]
          apply okOr_then
          · intro _ _
            exact hok s rfl rfl rfl rfl
          · intro _
            exact herr _ _
      | none =>
          simp only [hkey]
          cases cfg.confKey with
          | some key =>
              apply encrypt_then
              apply write_then
              · intro _ db' hrun
                obtain ⟨husers, hdevices⟩ := hwrite _ _ db' hrun
                exact hok _ husers hdevices rfl rfl
              · intro e
                exact herr _ _
          | none =>
              apply encrypt_then
              apply write_then
              · intro _ db' hrun
                obtain ⟨husers, hdevices⟩ := hwrite _ _ db' hrun
                exact hok _ husers hdevices rfl rfl
              · intro e
                exact herr _ _

/-- `ensure_wg_interface_up` keeps a running interface and creates a missing
one. -/
theorem ensureWgInterfaceUp_wp (s : Sys) :
    wp perform Bootstrap.ensureWgInterfaceUp (fun t r =>
      r = .ok () ∧ t.db = s.db ∧
        t.interface = if s.up then s.interface else Interface.empty) s := by
  obtain ⟨db, allocators, interface, up, inFlight⟩ := s
  cases up with
  | true =>
      exact ⟨rfl, rfl, rfl⟩
  | false =>
      exact ⟨rfl, rfl, rfl⟩

/-- The allocators are built from the database and change nothing else. -/
theorem buildAllocators_wp (servers : List Server) (s : Sys) :
    wp perform (Bootstrap.buildAllocators servers) (fun t _ =>
      t.db = s.db ∧ t.interface = s.interface) s := by
  induction servers generalizing s with
  | nil =>
      exact ⟨rfl, rfl⟩
  | cons server servers ih =>
      apply read_then rfl rfl
      apply call_then
      exact ih _

/-- The server that the query of `reconcile_peers` joins to a device. -/
theorem joined_server {db : Db} {d : Device} (hd : d ∈ db.devices) :
    ∃ server, db.servers.filter (fun v => v.id == d.serverId) = [server] := by
  obtain ⟨server, hmem, hid⟩ := List.mem_map.mp (db.valid.devices_server d hd)
  refine ⟨server, ?_⟩
  rw [← hid]
  exact filter_key_eq_singleton db.valid.servers_id hmem

/-- The loop of `reconcile_peers` over the rows of some devices. -/
theorem addPeers_wp (servers : List Server) (ds : List Device)
    (hds : ∀ d ∈ ds, ∃ server, servers.filter (fun v => v.id == d.serverId) = [server])
    (s : Sys) :
    wp perform
      (Bootstrap.addPeers (ds.flatMap fun d =>
        (servers.filter fun v => v.id == d.serverId).map fun v =>
          (d.publicKey, d.allocatedIp, v.persistentKeepalive)))
      (fun t _ => t.db = s.db ∧ Installs (ds.map stationOf) s.interface t.interface) s := by
  induction ds generalizing s with
  | nil =>
      exact ⟨rfl, installs_nil _⟩
  | cons d ds ih =>
      obtain ⟨server, hserver⟩ := hds d (by simp)
      rw [List.flatMap_cons, hserver]
      apply call_then
      refine wp_mono (ih (fun e he => hds e (List.mem_cons_of_mem _ he)) _) ?_
      rintro t _ ⟨hdb, hinstalls⟩
      exact ⟨hdb, installs_cons hinstalls⟩

/-- The active devices. -/
def Fleet.activeStations (f : Fleet) : List Station :=
  f.stations.filter fun d => d.status == .active

/-- What a completed start of the process leaves behind. -/
structure Rebooted (cfg : Bootstrap.Config) (s t : Sys) : Prop where
  accounts_eq : t.fleet.accounts = bootAccounts cfg s.db
  stations_eq : t.fleet.stations = s.fleet.stations
  installed : Installs s.fleet.activeStations
    (if s.up then s.interface else Interface.empty) t.interface

theorem reconcilePeers_wp (s : Sys) :
    wp perform Bootstrap.reconcilePeers (fun t _ =>
      t.db = s.db ∧ Installs s.fleet.activeStations s.interface t.interface) s := by
  apply tryRead_then rfl rfl
  have hactive : (s.db.devices.filter fun d => d.status == .active).map stationOf =
      s.fleet.activeStations := by
    unfold Fleet.activeStations Sys.fleet
    rw [List.filter_map]
    rfl
  rw [← hactive]
  apply addPeers_wp
  intro d hd
  exact joined_server (List.mem_filter.mp hd).1

/-- `main` on a legacy backend. -/
theorem boot_wp (cfg : Bootstrap.Config) (s : Sys) :
    wp perform (Bootstrap.boot cfg) (fun t r => r = .ok () → Rebooted cfg s t) s := by
  apply ensureAdmin_then
  · intro _ _ h
    cases h
  intro t₁ haccounts hdevices₁ hinterface₁ hup₁
  apply ensureDefaultServer_then
  · intro _ _ h
    cases h
  intro t₂ husers₂ hdevices₂ hinterface₂ hup₂
  refine wp_bind_of (ensureWgInterfaceUp_wp t₂) ?_ ?_
  swap
  · rintro _ _ ⟨h, _⟩
    cases h
  rintro t₃ _ ⟨_, hdb₃, hinterface₃⟩
  apply wp_bind
  apply read_then rfl rfl
  refine wp_mono (buildAllocators_wp _ t₃) ?_
  rintro t₄ (e | _) ⟨hdb₄, hinterface₄⟩
  · intro h
    cases h
  · refine wp_mono (reconcilePeers_wp t₄) ?_
    rintro t _ ⟨hdb, hinstalls⟩ _
    have hstations : t₄.fleet.stations = s.fleet.stations := by
      simp only [Sys.fleet, hdb₄, hdb₃, hdevices₂, hdevices₁]
    refine ⟨?_, ?_, ?_⟩
    · simp only [Sys.fleet, hdb, hdb₄, hdb₃, husers₂, haccounts]
    · rw [← hstations]
      simp only [Sys.fleet, hdb]
    · unfold Fleet.activeStations at hinstalls ⊢
      rw [hstations, hinterface₄, hinterface₃, hup₂, hup₁, hinterface₂, hinterface₁]
        at hinstalls
      exact hinstalls

end Restart

end Api
end ZeroVpn
