import ZeroVpn.Api.Fleet

/-!
# What a completed request does to the fleet

For every handler, run alone and with every call answered by a working
database and interface, one lemma lists all the ways in which the fleet can
change.  The later invariants only use these lemmas.
-/

namespace ZeroVpn

open Library
open Library.Attempt (wp wp_pure wp_lift wp_bind wp_bind_of wp_mono)

namespace Api

open Db (Uuid Device User Server DbError Ciphertext UserStatus UserRole DeviceStatus)
open Wg (IpAddr)

/-- A call answered by a working environment. -/
def perform (c : ApiCmd) (s : Sys) : Sys × c.Reply := c.sem true s

section Rules

variable {α : Type} {s : Sys}

theorem sem_sql_read {q : DbCall} {f : Db → q.Reply}
    (hq : q.run = DbCall.read f) (hin : s.inFlightAfter q = s.inFlight) :
    (ApiCmd.sql q).sem true s = (s, .ok (f s.db)) := by
  have hrun : q.run s.db = .ok (f s.db, s.db) := by
    rw [hq]
    rfl
  simp only [ApiCmd.sem, hrun, hin]

variable {β : Type} {Q : Sys → Except ApiError β → Prop}

theorem read_then {q : DbCall} {f : Db → q.Reply} {k : q.Reply → Handler β}
    (hq : q.run = DbCall.read f) (hin : s.inFlightAfter q = s.inFlight)
    (h : wp perform (k (f s.db)) Q s) :
    wp perform (sql q >>= k) Q s := by
  apply wp_bind
  apply wp_lift
  rw [perform, sem_sql_read hq hin]
  exact h

theorem tryRead_then {q : DbCall} {f : Db → q.Reply}
    {k : Except DbError q.Reply → Handler β}
    (hq : q.run = DbCall.read f) (hin : s.inFlightAfter q = s.inFlight)
    (h : wp perform (k (.ok (f s.db))) Q s) :
    wp perform (trySql q >>= k) Q s := by
  apply wp_bind
  apply wp_lift (c := ApiCmd.sql q)
  rw [perform, sem_sql_read hq hin]
  exact h

theorem write_then {q : DbCall} {k : q.Reply → Handler β}
    (hok : ∀ r db', q.run s.db = .ok (r, db') →
      wp perform (k r) Q { s with db := db', inFlight := s.inFlightAfter q })
    (herr : ∀ e, Q s (.error e)) :
    wp perform (sql q >>= k) Q s := by
  apply wp_bind
  apply wp_lift
  simp only [perform, ApiCmd.sem]
  rcases hrun : q.run s.db with e | ⟨r, db'⟩
  · exact herr _
  · exact hok r db' hrun

/-- A statement that the database accepts. -/
theorem accepted_then {q : DbCall} {k : q.Reply → Handler β} {r : q.Reply} {db' : Db}
    (hrun : q.run s.db = .ok (r, db'))
    (h : wp perform (k r) Q { s with db := db', inFlight := s.inFlightAfter q }) :
    wp perform (sql q >>= k) Q s := by
  apply wp_bind
  apply wp_lift
  simp only [perform, ApiCmd.sem, hrun]
  exact h

theorem tryWrite_then {q : DbCall} {k : Except DbError q.Reply → Handler β}
    (hok : ∀ r db', q.run s.db = .ok (r, db') →
      wp perform (k (.ok r)) Q { s with db := db', inFlight := s.inFlightAfter q })
    (herr : ∀ e, wp perform (k (.error e)) Q s) :
    wp perform (trySql q >>= k) Q s := by
  apply wp_bind
  apply wp_lift (c := ApiCmd.sql q)
  simp only [perform, ApiCmd.sem]
  rcases hrun : q.run s.db with e | ⟨r, db'⟩
  · exact herr _
  · exact hok r db' hrun

theorem call_then {c : ApiCmd} {k : c.Reply → Handler β}
    (h : wp perform (k (c.sem true s).2) Q (c.sem true s).1) :
    wp perform (call c >>= k) Q s :=
  wp_bind (wp_lift h)

theorem okOr_then {o : Option α} {e : ApiError} {k : α → Handler β}
    (hsome : ∀ a, o = some a → wp perform (k a) Q s)
    (hnone : o = none → Q s (.error e)) :
    wp perform (okOr o e >>= k) Q s := by
  cases o with
  | none =>
      exact hnone rfl
  | some a =>
      exact hsome a rfl

theorem failIf_then {c : Bool} {e : ApiError} {k : Unit → Handler β}
    (hfail : c = true → Q s (.error e))
    (hpass : c = false → wp perform (k ()) Q s) :
    wp perform (failIf c e >>= k) Q s := by
  cases c with
  | true =>
      exact hfail rfl
  | false =>
      exact hpass rfl

theorem audit_then {action : String} {target : Option Uuid} {k : Unit → Handler β}
    (h : wp perform (k ()) Q s) :
    wp perform (audit action target >>= k) Q s :=
  wp_bind (wp_lift h)

theorem wp_audit {action : String} {target : Option Uuid}
    {Q : Sys → Except ApiError Unit → Prop} (h : Q s (.ok ())) :
    wp perform (audit action target) Q s := h

theorem render_then {k : Unit → Handler β} (h : wp perform (k ()) Q s) :
    wp perform (render >>= k) Q s :=
  wp_bind (wp_lift h)

theorem encrypt_then {plaintext what : String} {k : Ciphertext → Handler β}
    (h : wp perform (k (.encrypted plaintext)) Q s) :
    wp perform (encrypt plaintext what >>= k) Q s :=
  wp_bind (wp_lift h)

/-- The session's user is stored, present and active, or the request stops. -/
theorem currentUser_then {id : Uuid} {k : User → Handler β}
    (herr : ∀ e, Q s (.error e))
    (hok : ∀ u ∈ s.db.users, u.id = id → u.status = .active → u.deletedAt = none →
      wp perform (k u) Q s) :
    wp perform (currentUser id >>= k) Q s := by
  apply wp_bind
  apply read_then rfl rfl
  apply okOr_then
  · intro u hu
    apply failIf_then
    · intro _
      exact herr _
    · intro hstatus
      have hmem : u ∈ s.db.users := List.mem_of_find?_eq_some hu
      have hpresent := List.find?_some hu
      simp only [Db.Users.present, Bool.and_eq_true, beq_iff_eq,
        Option.isNone_iff_eq_none] at hpresent
      have hactive : u.status = .active := by
        simpa using hstatus
      exact hok u hmem hpresent.1 hactive hpresent.2
  · intro _
    exact herr _

/-- The session belongs to an active administrator. -/
def Sys.IsAdmin (s : Sys) (id : Uuid) : Prop :=
  ∃ u ∈ s.db.users, u.id = id ∧ u.status = .active ∧ u.deletedAt = none ∧ u.role = .admin

/-- An administrator's request. -/
theorem requireAdmin_then {id : Uuid} {k : User → Handler β}
    (herr : ∀ e, Q s (.error e))
    (hok : ∀ u, u.id = id → s.IsAdmin id → wp perform (k u) Q s) :
    wp perform (requireAdmin id >>= k) Q s := by
  apply wp_bind
  apply currentUser_then
  · intro e
    exact herr e
  · intro u hu hid hactive hpresent
    apply failIf_then
    · intro _
      exact herr _
    · intro hrole
      exact hok u hid ⟨u, hu, hid, hactive, hpresent, by simpa using hrole⟩

/-- `releaseAddress` leaves database and interface alone. -/
theorem releaseAddress_then {releaser : Releaser} {serverId : Uuid} {ip : IpAddr}
    {k : Unit → Handler β}
    (h : ∀ t : Sys, t.db = s.db → t.interface = s.interface → wp perform (k ()) Q t) :
    wp perform (releaseAddress releaser serverId ip >>= k) Q s := by
  apply wp_bind
  apply call_then
  cases ha : s.allocators serverId with
  | none =>
      simp only [ApiCmd.sem, ha, Option.isSome_none, Bool.false_eq_true]
      exact h s rfl rfl
  | some a =>
      simp only [ApiCmd.sem, ha, Option.isSome_some]
      apply wp_lift
      simp only [perform, ApiCmd.sem, ha]
      exact h _ rfl rfl

end Rules

section Rows

variable {db db' : Db} {d₀ : Device}

/-- A statement that names one stored device. -/
theorem stations_of_update {p : Device → Bool} {g : Device → Device} {n : Nat}
    (hmem : d₀ ∈ db.devices) (hp : ∀ d ∈ db.devices, p d = true ↔ d.id = d₀.id)
    (h : Db.updateDevices p g db = .ok (n, db')) :
    n ≠ 0 ∧ db'.users = db.users ∧
      db'.devices.map stationOf =
        updateWhere (fun e => e.id == (stationOf d₀).id) (fun _ => stationOf (g d₀))
          (db.devices.map stationOf) := by
  obtain ⟨htables, hn⟩ := Db.updateDevices_eq_ok h
  have hpos : n ≠ 0 := by
    have haffected := rowsAffected_pos hmem ((hp d₀ hmem).mpr rfl)
    omega
  have husers : db'.users = db.users := by
    rw [htables]
  have hdevices : db'.devices = updateWhere p g db.devices := by
    rw [htables]
  refine ⟨hpos, husers, ?_⟩
  rw [hdevices]
  apply map_updateWhere_comm
  · intro d hd
    rw [Bool.eq_iff_iff, hp d hd]
    simp [stationOf]
  · intro d hd hpd
    rw [db.deviceId_unique hd hmem ((hp d hd).mp hpd)]

/-- The `WHERE` clause of an owner's statement names the device it found. -/
theorem owned_iff (hmem : d₀ ∈ db.devices) :
    ∀ d ∈ db.devices, Db.Devices.owned d₀.userId d₀.id d = true ↔ d.id = d₀.id := by
  intro d hd
  simp only [Db.Devices.owned, Bool.and_eq_true, beq_iff_eq]
  constructor
  · rintro ⟨_, hid⟩
    exact hid
  · intro hid
    have heq : d = d₀ := db.deviceId_unique hd hmem hid
    rw [heq]
    exact ⟨rfl, rfl⟩

theorem findForUser_eq_some {userId deviceId : Uuid}
    (h : Db.Devices.findForUser userId deviceId db = some d₀) :
    d₀ ∈ db.devices ∧ d₀.userId = userId ∧ d₀.id = deviceId := by
  have hmem : d₀ ∈ db.devices := List.mem_of_find?_eq_some h
  have hp := List.find?_some h
  simp only [Db.Devices.owned, Bool.and_eq_true, beq_iff_eq] at hp
  exact ⟨hmem, hp.1, hp.2⟩

theorem getById_eq_some {deviceId : Uuid}
    (h : Db.Devices.getById deviceId db = some d₀) :
    d₀ ∈ db.devices ∧ d₀.id = deviceId := by
  have hmem : d₀ ∈ db.devices := List.mem_of_find?_eq_some h
  have hp := List.find?_some h
  simp only [beq_iff_eq] at hp
  exact ⟨hmem, hp⟩

/-- A stored device is found by its owner. -/
theorem findForUser_of_station {d : Station} (h : d ∈ db.devices.map stationOf) :
    Db.Devices.findForUser d.userId d.id db ≠ none := by
  obtain ⟨row, hrow, rfl⟩ := List.mem_map.mp h
  intro hnone
  have hall := List.find?_eq_none.mp hnone row hrow
  simp [Db.Devices.owned, stationOf] at hall

/-- A statement on columns that the fleet does not see. -/
theorem stations_of_unseen {p : Device → Bool} {g : Device → Device} {n : Nat}
    (h : Db.updateDevices p g db = .ok (n, db'))
    (hg : ∀ d, stationOf (g d) = stationOf d) :
    db'.users = db.users ∧ db'.devices.map stationOf = db.devices.map stationOf := by
  obtain ⟨htables, _⟩ := Db.updateDevices_eq_ok h
  have hdevices : db'.devices = updateWhere p g db.devices := by
    rw [htables]
  refine ⟨by rw [htables], ?_⟩
  rw [hdevices]
  exact map_updateWhere hg _

theorem fleet_congr {s t : Sys} (husers : t.db.users = s.db.users)
    (hstations : t.db.devices.map stationOf = s.db.devices.map stationOf)
    (hinterface : t.interface = s.interface) : t.fleet = s.fleet := by
  simp only [Sys.fleet, husers, hstations, hinterface]

/-- The owner of the session's device is active. -/
theorem activeOwner_of_user {s : Sys} {u : User} {d : Station}
    (hu : u ∈ s.db.users) (hid : u.id = d.userId)
    (hactive : u.status = .active) (hpresent : u.deletedAt = none) :
    s.fleet.ActiveOwner d := by
  refine ⟨accountOf u, List.mem_map_of_mem hu, hid, ?_⟩
  simp [Account.active, accountOf, hactive, hpresent]

end Rows

/-- The status of one device changes, and its peer is installed exactly when
the new status is active. -/
structure Settled (f f' : Fleet) (d : Station) (status : DeviceStatus) : Prop where
  touch : Touch f f' d { d with status := status }
  served : status = .active → f'.Served d
  dropped : status ≠ .active → f'.interface d.publicKey = none

/-- A touch that leaves the key of the device alone. -/
theorem touch_status (status : DeviceStatus) {s t : Sys} {device : Device}
    (hmem : device ∈ s.db.devices) (husers : t.db.users = s.db.users)
    (hstations : t.db.devices.map stationOf =
      updateWhere (fun e => e.id == (stationOf device).id)
        (fun _ => { stationOf device with status := status })
        (s.db.devices.map stationOf))
    (hframe : ∀ k, k ≠ device.publicKey → t.interface k = s.interface k) :
    Touch s.fleet t.fleet (stationOf device) { stationOf device with status := status } where
  mem := List.mem_map_of_mem hmem
  id_eq := rfl
  userId_eq := rfl
  address_eq := rfl
  accounts_eq := by
    simp only [Sys.fleet, husers]
  stations_eq := hstations
  frame := fun k hk _ => hframe k hk
  old_key := fun h => absurd rfl h

/-- A touch that replaces the key of the device, in the row and on the
interface. -/
theorem touch_rekey {s t : Sys} {device : Device} {key : String} {keepalive : Nat}
    (hmem : device ∈ s.db.devices) (husers : t.db.users = s.db.users)
    (hstations : t.db.devices.map stationOf =
      updateWhere (fun e => e.id == (stationOf device).id)
        (fun _ => { stationOf device with publicKey := key })
        (s.db.devices.map stationOf))
    (hinterface : t.interface = (s.interface.removePeer device.publicKey).addPeer key
      ⟨device.allocatedIp, none, keepalive⟩) :
    Touch s.fleet t.fleet (stationOf device) { stationOf device with publicKey := key } ∧
      t.fleet.Served { stationOf device with publicKey := key } := by
  refine ⟨⟨List.mem_map_of_mem hmem, rfl, rfl, rfl, ?_, hstations, ?_, ?_⟩, ?_⟩
  · simp only [Sys.fleet, husers]
  · intro k hold hnew
    simp only [Sys.fleet, hinterface]
    rw [Interface.addPeer_of_ne hnew]
    exact Interface.removePeer_of_ne hold
  · intro hne
    simp only [Sys.fleet, hinterface]
    rw [Interface.addPeer_of_ne (Ne.symm hne)]
    exact Interface.removePeer_self _ _
  · refine ⟨⟨device.allocatedIp, none, keepalive⟩, ?_, rfl⟩
    simp only [Sys.fleet, hinterface]
    exact Interface.addPeer_self _ _ _

section Devices

variable {s : Sys} {device : Device}

/-- `teardown_device` on a stored device revokes it and drops its peer. -/
theorem teardownDevice_then {β : Type} {Q : Sys → Except ApiError β → Prop}
    {k : Unit → Handler β}
    (hmem : device ∈ s.db.devices)
    (herr : ∀ e, Q s (.error e))
    (hok : ∀ t : Sys, Settled s.fleet t.fleet (stationOf device) .revoked →
      wp perform (k ()) Q t) :
    wp perform (Devices.teardownDevice device >>= k) Q s := by
  apply wp_bind
  apply write_then
  · intro n db' hrun
    obtain ⟨hn, husers, hstations⟩ := stations_of_update hmem (owned_iff hmem) hrun
    apply failIf_then
    · intro hzero
      exact absurd (eq_of_beq (α := Nat) hzero) hn
    · intro _
      apply releaseAddress_then
      intro t hdb hinterface
      apply call_then
      apply wp_pure
      apply hok
      refine ⟨touch_status _ hmem ?_ ?_ ?_, by simp, ?_⟩
      · simp only [ApiCmd.sem, hdb, husers]
      · simp only [ApiCmd.sem, hdb, hstations]
        rfl
      · intro key hkey
        simp only [ApiCmd.sem, hinterface, Interface.removePeer_of_ne hkey]
      · intro _
        exact Interface.removePeer_self _ _
  · intro e
    exact herr e

/-- The keepalive lookup reads only. -/
theorem lookupKeepalive_then {β : Type} {Q : Sys → Except ApiError β → Prop}
    {serverId : Uuid} {k : Nat → Handler β}
    (h : ∀ keepalive, wp perform (k keepalive) Q s) :
    wp perform (Devices.lookupKeepalive serverId >>= k) Q s := by
  apply wp_bind
  apply tryRead_then rfl rfl
  cases Db.Servers.findById serverId s.db with
  | none =>
      exact h _
  | some server =>
      exact h _

/-- `apply_pause_state` on a stored device. -/
theorem applyPauseState_then {β : Type} {Q : Sys → Except ApiError β → Prop}
    {target : DeviceStatus} {k : Unit → Handler β}
    (hmem : device ∈ s.db.devices) (htarget : target ≠ .revoked)
    (herr : ∀ e, Q s (.error e))
    (hok : ∀ t : Sys, device.status ≠ .revoked →
      Settled s.fleet t.fleet (stationOf device) target → wp perform (k ()) Q t) :
    wp perform (Devices.applyPauseState device target >>= k) Q s := by
  apply wp_bind
  apply failIf_then
  · intro _
    exact herr _
  · intro hstatus
    have hlive : device.status ≠ .revoked := by
      simpa using hstatus
    apply write_then
    · intro n db' hrun
      obtain ⟨hn, husers, hstations⟩ := stations_of_update hmem (owned_iff hmem) hrun
      apply failIf_then
      · intro hzero
        exact absurd (eq_of_beq (α := Nat) hzero) hn
      · intro _
        cases target with
        | paused =>
            apply call_then
            apply wp_pure
            refine hok _ hlive ⟨touch_status _ hmem husers hstations ?_, by simp, ?_⟩
            · intro key hkey
              exact Interface.removePeer_of_ne hkey
            · intro _
              exact Interface.removePeer_self _ _
        | active =>
            apply lookupKeepalive_then
            intro keepalive
            apply call_then
            apply wp_pure
            refine hok _ hlive ⟨touch_status _ hmem husers hstations ?_, ?_, by simp⟩
            · intro key hkey
              exact Interface.addPeer_of_ne hkey
            · intro _
              exact ⟨_, Interface.addPeer_self _ _ _, rfl⟩
        | revoked =>
            exact absurd rfl htarget
    · intro e
      exact herr e

/-- `POST /devices/{id}/rotate-keys`: the key of one device of the session's
user is replaced, in the row and on the interface. -/
theorem rotateKeys_wp (userId deviceId : Uuid) (draw : Devices.Draw) :
    wp perform (Devices.rotateKeys userId deviceId draw) (fun t _ =>
      t.fleet = s.fleet ∨
        ∃ d ∈ s.fleet.stations, d.userId = userId ∧ d.id = deviceId ∧
          d.status ≠ .revoked ∧ s.fleet.ActiveOwner d ∧
          Touch s.fleet t.fleet d { d with publicKey := draw.publicKey } ∧
          t.fleet.Served { d with publicKey := draw.publicKey }) s := by
  apply currentUser_then (fun _ => Or.inl rfl)
  intro u hu huid hactive hpresent
  apply read_then rfl rfl
  apply okOr_then
  · intro device hfound
    obtain ⟨hmem, howner, hid⟩ := findForUser_eq_some hfound
    apply failIf_then (fun _ => Or.inl rfl)
    intro hstatus
    have hlive : device.status ≠ .revoked := by
      simpa using hstatus
    apply read_then rfl rfl
    apply okOr_then
    · intro server _
      apply write_then
      · intro n db' hrun
        rw [← howner, ← hid] at hrun
        obtain ⟨hn, husers, hstations⟩ := stations_of_update hmem (owned_iff hmem) hrun
        apply failIf_then
        · intro hzero
          exact absurd (eq_of_beq (α := Nat) hzero) hn
        · intro _
          apply encrypt_then
          obtain ⟨db'', hrun'⟩ := Db.updateDevices_of_unconstrained
            (p := Db.Devices.owned u.id deviceId)
            (f := fun d => { d with
              privateKeyEncrypted := some (.encrypted draw.privateKey) })
            db' (fun _ => rfl)
          obtain ⟨husers', hstations'⟩ := stations_of_unseen hrun' (fun _ => rfl)
          refine accepted_then hrun' ?_
          apply call_then
          apply call_then
          apply render_then
          apply audit_then
          apply read_then rfl rfl
          have hdone : ∀ t : Sys, t.db = db'' →
              t.interface = (s.interface.removePeer device.publicKey).addPeer draw.publicKey
                ⟨device.allocatedIp, none, asU16 server.persistentKeepalive⟩ →
              t.fleet = s.fleet ∨
              ∃ d ∈ s.fleet.stations, d.userId = userId ∧ d.id = deviceId ∧
                d.status ≠ .revoked ∧ s.fleet.ActiveOwner d ∧
                Touch s.fleet t.fleet d { d with publicKey := draw.publicKey } ∧
                t.fleet.Served { d with publicKey := draw.publicKey } := by
            intro t hdb hinterface
            right
            refine ⟨stationOf device, List.mem_map_of_mem hmem, howner.trans huid, hid, hlive,
              activeOwner_of_user hu howner.symm hactive hpresent, ?_⟩
            apply touch_rekey hmem _ _ hinterface
            · rw [hdb, husers', husers]
            · rw [hdb, hstations', hstations]
              rfl
          exact okOr_then (fun _ _ => hdone _ rfl rfl) (fun _ => hdone _ rfl rfl)
      · intro e
        exact Or.inl rfl
    · intro _
      exact Or.inl rfl
  · intro _
    exact Or.inl rfl

section Provisioning

variable {β : Type} {Q : Sys → Except ApiError β → Prop}

theorem checkDeviceLimit_then {userId : Uuid} {k : Unit → Handler β}
    (herr : ∀ e, Q s (.error e)) (hok : wp perform (k ()) Q s) :
    wp perform (Devices.checkDeviceLimit userId >>= k) Q s := by
  apply wp_bind
  apply read_then rfl rfl
  apply read_then rfl rfl
  unfold failIf
  split
  · exact herr _
  · exact hok

theorem pickServer_then {k : Server → Handler β}
    (herr : ∀ e, Q s (.error e)) (hok : ∀ server, wp perform (k server) Q s) :
    wp perform (Devices.pickServer >>= k) Q s := by
  apply wp_bind
  apply read_then rfl rfl
  apply okOr_then
  · intro server _
    apply call_then
    apply failIf_then
    · intro _
      exact herr _
    · intro _
      exact hok server
  · intro _
    exact herr _

/-- Taking an address changes allocators only. -/
theorem takeAddress_then (requested : Option (Option IpAddr)) {serverId : Uuid}
    {k : IpAddr → Handler β}
    (herr : ∀ (t : Sys) e, t.db = s.db → t.interface = s.interface → Q t (.error e))
    (hok : ∀ (t : Sys) ip, t.db = s.db → t.interface = s.interface →
      wp perform (k ip) Q t) :
    wp perform (Devices.takeAddress serverId requested >>= k) Q s := by
  apply wp_bind
  unfold Devices.takeAddress
  split
  · rename_i raw
    cases raw with
    | none =>
        exact herr s _ rfl rfl
    | some ip =>
        apply wp_lift
        simp only [perform, ApiCmd.sem]
        cases ha : s.allocators serverId with
        | none =>
            exact herr s _ rfl rfl
        | some a =>
            rcases hr : a.tryReserve ip with ⟨a', e | _⟩
            · simp only [hr]
              cases e <;> exact herr _ _ rfl rfl
            · simp only [hr]
              exact hok _ ip rfl rfl
  · apply wp_lift
    simp only [perform, ApiCmd.sem]
    cases ha : s.allocators serverId with
    | none =>
        exact herr s _ rfl rfl
    | some a =>
        rcases hr : a.allocate with ⟨a', _ | e | ip⟩
        · simp only [hr]
          exact herr _ _ rfl rfl
        · simp only [hr]
          exact herr _ _ rfl rfl
        · simp only [hr]
          exact hok _ ip rfl rfl

/-- An insert stores the row, or gives the address back. -/
theorem insertDevice_then {draw : Devices.Draw} {new : Db.Devices.NewDevice}
    {k : Uuid → Handler β}
    (herr : ∀ (t : Sys) e, t.db = s.db → t.interface = s.interface → Q t (.error e))
    (hok : ∀ t : Sys, t.db.users = s.db.users →
      t.db.devices = s.db.devices ++ [new.row draw.id] →
      t.interface = s.interface → wp perform (k draw.id) Q t) :
    wp perform (Devices.insertDevice draw new >>= k) Q s := by
  apply wp_bind
  apply tryWrite_then
  · intro id db' hrun
    obtain ⟨htables, rfl⟩ := Db.write_return_eq_ok hrun
    have husers : db'.users = s.db.users := by
      rw [htables]
    have hdevices : db'.devices = s.db.devices ++ [new.row draw.id] := by
      rw [htables]
    apply wp_pure
    exact hok _ husers hdevices rfl
  · intro e
    apply call_then
    simp only [ApiCmd.sem]
    cases ha : s.allocators new.serverId with
    | none =>
        exact herr s _ rfl rfl
    | some a =>
        exact herr _ _ rfl rfl

/-- Seeding the quota of a device does not show in the fleet. -/
theorem seedQuota_then {deviceId : Uuid} {cap : Option Int} {k : Unit → Handler β}
    (hok : ∀ t : Sys, t.fleet = s.fleet → wp perform (k ()) Q t) :
    wp perform (Devices.seedQuota deviceId cap >>= k) Q s := by
  apply wp_bind
  unfold Devices.seedQuota
  cases cap with
  | none =>
      exact hok s rfl
  | some c =>
      obtain ⟨db', hrun⟩ := Db.updateDevices_of_unconstrained
        (p := fun d => d.id == deviceId) (f := fun d => { d with monthlyByteCap := some c })
        s.db (fun _ => rfl)
      obtain ⟨husers, hstations⟩ := stations_of_unseen hrun (fun _ => rfl)
      refine accepted_then hrun ?_
      exact hok _ (fleet_congr husers hstations rfl)

/-- The last step of both provisioning handlers: the stored device gets its
peer. -/
theorem installStored_wp {f : Fleet} {d : Station} {keepalive : Nat}
    (hactive : d.status = .active) (howner : f.ActiveOwner d)
    (haccounts : s.fleet.accounts = f.accounts)
    (hstations : s.fleet.stations = f.stations ++ [d])
    (hinterface : s.fleet.interface = f.interface) :
    wp perform (Devices.installStored d.userId d.id d.publicKey d.address keepalive)
      (fun t _ => Provisioned f t.fleet d) s := by
  have hmem : d ∈ s.db.devices.map stationOf := by
    have heq : s.db.devices.map stationOf = f.stations ++ [d] := hstations
    rw [heq]
    simp
  unfold Devices.installStored
  apply read_then rfl rfl
  apply okOr_then
  · intro _ _
    apply call_then
    apply wp_pure
    refine ⟨hactive, howner, haccounts, hstations, ?_, ?_⟩
    · intro key hkey
      rw [← hinterface]
      exact Interface.addPeer_of_ne hkey
    · exact ⟨_, Interface.addPeer_self _ _ _, rfl⟩
  · intro hnone
    exact absurd hnone (findForUser_of_station hmem)

end Provisioning

/-- `POST /devices` adds one device of the session's user, or nothing. -/
theorem create_wp (userId : Uuid) (body : Devices.CreateBody) (draw : Devices.Draw) :
    wp perform (Devices.create userId body draw) (fun t _ =>
      t.fleet = s.fleet ∨ ∃ d, Provisioned s.fleet t.fleet d) s := by
  have hquiet : ∀ (t : Sys), t.db = s.db → t.interface = s.interface →
      t.fleet = s.fleet ∨ ∃ d, Provisioned s.fleet t.fleet d := by
    intro t hdb hinterface
    left
    exact fleet_congr (by rw [hdb]) (by rw [hdb]) hinterface
  apply currentUser_then (fun _ => Or.inl rfl)
  intro u hu huid hactive hpresent
  apply failIf_then (fun _ => Or.inl rfl)
  intro _
  apply checkDeviceLimit_then (fun _ => Or.inl rfl)
  apply pickServer_then (fun _ => Or.inl rfl)
  intro server
  apply takeAddress_then _ (fun t _ => hquiet t)
  intro t ip hdb hinterface
  apply encrypt_then
  apply insertDevice_then
  · intro t' _ hdb' hinterface'
    exact hquiet t' (hdb'.trans hdb) (hinterface'.trans hinterface)
  · intro t₁ husers hdevices hinterface₁
    apply read_then rfl rfl
    apply seedQuota_then
    intro t₂ hfleet
    apply audit_then
    apply render_then
    refine wp_mono (installStored_wp
      (f := s.fleet) (d := ⟨draw.id, u.id, draw.publicKey, ip, .active⟩) rfl ?_ ?_ ?_ ?_) ?_
    · exact activeOwner_of_user hu rfl hactive hpresent
    · rw [hfleet]
      simp only [Sys.fleet, husers, hdb]
    · rw [hfleet]
      simp only [Sys.fleet, hdevices, hdb, List.map_append, List.map_cons, List.map_nil]
      rfl
    · rw [hfleet]
      exact hinterface₁.trans hinterface
    · intro t₃ _ h
      exact Or.inr ⟨_, h⟩

/-- The provisioning half of `POST /devices/connect` adds one device of the
session's user, or nothing. -/
theorem provision_wp {u : User} (body : Devices.ConnectBody) (draw : Devices.Draw)
    (hu : u ∈ s.db.users) (hactive : u.status = .active) (hpresent : u.deletedAt = none) :
    wp perform (Devices.provision u body draw) (fun t _ =>
      t.fleet = s.fleet ∨ ∃ d, Provisioned s.fleet t.fleet d) s := by
  have hquiet : ∀ (t : Sys), t.db = s.db → t.interface = s.interface →
      t.fleet = s.fleet ∨ ∃ d, Provisioned s.fleet t.fleet d := by
    intro t hdb hinterface
    left
    exact fleet_congr (by rw [hdb]) (by rw [hdb]) hinterface
  apply checkDeviceLimit_then (fun _ => Or.inl rfl)
  refine wp_bind_of (P := fun t _ => t = s) ?_ ?_ ?_
  · unfold Devices.provisionName
    split
    · split
      · rfl
      · split <;> rfl
    · rfl
  · intro t name hts
    subst hts
    apply pickServer_then (fun _ => Or.inl rfl)
    intro server
    refine takeAddress_then none (fun t _ => hquiet t) ?_
    intro t₀ ip hdb hinterface
    apply encrypt_then
    apply insertDevice_then
    · intro t' _ hdb' hinterface'
      exact hquiet t' (hdb'.trans hdb) (hinterface'.trans hinterface)
    · intro t₁ husers hdevices hinterface₁
      apply audit_then
      apply render_then
      refine wp_mono (installStored_wp
        (f := t.fleet) (d := ⟨draw.id, u.id, draw.publicKey, ip, .active⟩) rfl ?_ ?_ ?_ ?_) ?_
      · exact activeOwner_of_user hu rfl hactive hpresent
      · simp only [Sys.fleet, husers, hdb]
      · simp only [Sys.fleet, hdevices, hdb, List.map_append, List.map_cons, List.map_nil]
        rfl
      · exact hinterface₁.trans hinterface
      · intro t₃ _ h
        exact Or.inr ⟨_, h⟩
  · intro t e hts
    subst hts
    exact Or.inl rfl

theorem namedDevice_then {β : Type} {Q : Sys → Except ApiError β → Prop}
    {userId : Uuid} {named : Option Uuid} {k : Option Device → Handler β}
    (h : ∀ found : Option Device,
      (∀ d, found = some d → d ∈ s.db.devices ∧ d.userId = userId ∧ named = some d.id) →
      wp perform (k found) Q s) :
    wp perform (Devices.namedDevice userId named >>= k) Q s := by
  unfold Devices.namedDevice
  cases named with
  | none =>
      refine h none ?_
      intro d hd
      cases hd
  | some id =>
      apply read_then rfl rfl
      apply h
      intro d hd
      obtain ⟨hmem, howner, hid⟩ := findForUser_eq_some hd
      exact ⟨hmem, howner, by rw [hid]⟩

/-- What `connect` may serve again. -/
theorem liveDevice_eq_some {found : Option Device} {d : Device} {c : Ciphertext}
    (h : Devices.liveDevice found = some (d, c)) :
    found = some d ∧ d.status ≠ .revoked ∧ d.privateKeyEncrypted = some c := by
  unfold Devices.liveDevice at h
  cases found with
  | none =>
      cases h
  | some d' =>
      simp only at h
      split at h
      · rename_i hlive
        obtain ⟨c', hc', hpair⟩ := Option.map_eq_some_iff.mp h
        cases hpair
        exact ⟨rfl, by simpa using hlive, hc'⟩
      · cases h

/-- The peer of a stored device is installed again. -/
theorem reconnect_wp {encrypted : Ciphertext} {wasOffline : Bool}
    (hmem : device ∈ s.db.devices) :
    wp perform (Devices.reconnect device encrypted wasOffline) (fun t _ =>
      t.fleet = s.fleet ∨
        (encrypted.decrypt ≠ none ∧
          Touch s.fleet t.fleet (stationOf device) (stationOf device) ∧
          t.fleet.Served (stationOf device))) s := by
  apply okOr_then
  · intro _ hkey
    apply read_then rfl rfl
    apply okOr_then
    · intro server _
      apply render_then
      apply call_then
      have hdone : ∀ t : Sys, t.db = s.db →
          t.interface = s.interface.addPeer device.publicKey
            ⟨device.allocatedIp, none, asU16 server.persistentKeepalive⟩ →
          t.fleet = s.fleet ∨
            (encrypted.decrypt ≠ none ∧
              Touch s.fleet t.fleet (stationOf device) (stationOf device) ∧
              t.fleet.Served (stationOf device)) := by
        intro t hdb hinterface
        right
        refine ⟨by simp [hkey], ?_, ?_⟩
        · refine touch_status device.status hmem (by rw [hdb]) ?_ ?_
          · rw [hdb]
            refine (updateWhere_self ?_).symm
            intro e he hid
            exact (row_unique s.fleet_wf.stations_id he (List.mem_map_of_mem hmem)
              (by simpa using hid)).symm
          · intro key hkey
            rw [hinterface]
            exact Interface.addPeer_of_ne hkey
        · refine ⟨⟨device.allocatedIp, none, asU16 server.persistentKeepalive⟩, ?_, rfl⟩
          simp only [Sys.fleet, hinterface]
          exact Interface.addPeer_self _ _ _
      cases wasOffline with
      | true =>
          exact wp_audit (hdone _ rfl rfl)
      | false =>
          exact wp_pure (hdone _ rfl rfl)
    · intro _
      exact Or.inl rfl
  · intro _
    exact Or.inl rfl

/-- The server can render the configuration of a device again. -/
def Readable (d : Device) : Prop :=
  (d.privateKeyEncrypted.bind Ciphertext.decrypt).isSome = true

instance (d : Device) : Decidable (Readable d) :=
  inferInstanceAs (Decidable (_ = _))

/-- `POST /devices/connect`: a new device, or the peer of a named device of
the session's user that is not revoked is installed again. -/
theorem connect_wp (userId : Uuid) (body : Devices.ConnectBody) (wasOffline : Bool)
    (draw : Devices.Draw) :
    wp perform (Devices.connect userId body wasOffline draw) (fun t _ =>
      (t.fleet = s.fleet ∨ ∃ d, Provisioned s.fleet t.fleet d) ∨
        ∃ d ∈ s.db.devices, d.userId = userId ∧ body.deviceId = some d.id ∧
          d.status ≠ .revoked ∧ Readable d ∧ s.fleet.ActiveOwner (stationOf d) ∧
          Touch s.fleet t.fleet (stationOf d) (stationOf d) ∧
          t.fleet.Served (stationOf d)) s := by
  apply currentUser_then (fun _ => Or.inl (Or.inl rfl))
  intro u hu huid hactive hpresent
  apply namedDevice_then
  intro found hfound
  cases hlive : Devices.liveDevice found with
  | none =>
      exact wp_mono (provision_wp body draw hu hactive hpresent) (fun _ _ h => Or.inl h)
  | some pair =>
      obtain ⟨hsome, hstatus, hkey⟩ := liveDevice_eq_some (d := pair.1) (c := pair.2) hlive
      obtain ⟨hmem, howner, hnamed⟩ := hfound pair.1 hsome
      refine wp_mono (reconnect_wp hmem) ?_
      rintro t _ (h | ⟨hread, htouch, hserved⟩)
      · exact Or.inl (Or.inl h)
      · right
        have hreadable : Readable pair.1 := by
          rw [Readable, hkey]
          exact Option.isSome_iff_ne_none.mpr hread
        exact ⟨pair.1, hmem, howner.trans huid, hnamed, hstatus, hreadable,
          activeOwner_of_user hu howner.symm hactive hpresent, htouch, hserved⟩

/-- `POST /devices/{id}/pause` and `/unpause`. -/
theorem setPauseState_wp {userId deviceId : Uuid} {target : DeviceStatus}
    (htarget : target ≠ .revoked) :
    wp perform (Devices.setPauseState userId deviceId target) (fun t _ =>
      t.fleet = s.fleet ∨
        ∃ d ∈ s.fleet.stations, d.userId = userId ∧ d.id = deviceId ∧
          d.status ≠ .revoked ∧ Settled s.fleet t.fleet d target) s := by
  apply read_then rfl rfl
  apply okOr_then
  · intro device hfound
    obtain ⟨hmem, howner, hid⟩ := findForUser_eq_some hfound
    apply applyPauseState_then hmem htarget (fun _ => Or.inl rfl)
    intro t hlive hsettled
    apply wp_audit
    right
    exact ⟨stationOf device, List.mem_map_of_mem hmem, howner, hid, hlive, hsettled⟩
  · intro _
    exact Or.inl rfl

theorem pause_settles (userId deviceId : Uuid) :
    wp perform (Devices.pause userId deviceId) (fun t _ =>
      t.fleet = s.fleet ∨
        ∃ d ∈ s.fleet.stations, d.userId = userId ∧ d.id = deviceId ∧
          Settled s.fleet t.fleet d .paused) s := by
  apply currentUser_then (fun _ => Or.inl rfl)
  intro u _ huid _ _
  refine wp_mono (setPauseState_wp (by simp)) ?_
  rintro t _ (h | ⟨d, hd, howner, hid, _, hsettled⟩)
  · exact Or.inl h
  · exact Or.inr ⟨d, hd, howner.trans huid, hid, hsettled⟩

theorem pause_wp (userId deviceId : Uuid) :
    wp perform (Devices.pause userId deviceId) (fun t _ =>
      t.fleet = s.fleet ∨
        ∃ d ∈ s.fleet.stations, Settled s.fleet t.fleet d .paused) s := by
  refine wp_mono (pause_settles userId deviceId) ?_
  rintro t _ (h | ⟨d, hd, _, _, hsettled⟩)
  · exact Or.inl h
  · exact Or.inr ⟨d, hd, hsettled⟩

theorem unpause_wp (userId deviceId : Uuid) :
    wp perform (Devices.unpause userId deviceId) (fun t _ =>
      t.fleet = s.fleet ∨
        ∃ d ∈ s.fleet.stations, s.fleet.ActiveOwner d ∧
          Settled s.fleet t.fleet d .active) s := by
  apply currentUser_then (fun _ => Or.inl rfl)
  intro u hu huid hactive hpresent
  refine wp_mono (setPauseState_wp (by simp)) ?_
  rintro t _ (h | ⟨d, hd, howner, _, _, hsettled⟩)
  · exact Or.inl h
  · exact Or.inr ⟨d, hd, activeOwner_of_user hu howner.symm hactive hpresent, hsettled⟩

/-- `DELETE /devices/{id}`. -/
theorem delete_settles (userId deviceId : Uuid) :
    wp perform (Devices.delete userId deviceId) (fun t _ =>
      t.fleet = s.fleet ∨
        ∃ d ∈ s.fleet.stations, d.userId = userId ∧ d.id = deviceId ∧
          Settled s.fleet t.fleet d .revoked) s := by
  apply currentUser_then (fun _ => Or.inl rfl)
  intro u _ huid _ _
  apply read_then rfl rfl
  apply okOr_then
  · intro device hfound
    obtain ⟨hmem, howner, hid⟩ := findForUser_eq_some hfound
    apply teardownDevice_then hmem (fun _ => Or.inl rfl)
    intro t hsettled
    apply wp_audit
    exact Or.inr ⟨stationOf device, List.mem_map_of_mem hmem, howner.trans huid, hid, hsettled⟩
  · intro _
    exact Or.inl rfl

theorem delete_wp (userId deviceId : Uuid) :
    wp perform (Devices.delete userId deviceId) (fun t _ =>
      t.fleet = s.fleet ∨
        ∃ d ∈ s.fleet.stations, Settled s.fleet t.fleet d .revoked) s := by
  refine wp_mono (delete_settles userId deviceId) ?_
  rintro t _ (h | ⟨d, hd, _, _, hsettled⟩)
  · exact Or.inl h
  · exact Or.inr ⟨d, hd, hsettled⟩

end Devices

end Api
end ZeroVpn
