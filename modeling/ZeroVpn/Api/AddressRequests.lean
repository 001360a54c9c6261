import ZeroVpn.Api.Addresses
import ZeroVpn.Api.Statements
import ZeroVpn.Api.TunnelAccess

/-!
# Requests that move addresses

Any number of requests that take or give back device addresses run at the same
time, each one call at a time, and the process may be killed and started again
between any two calls.  `AddressOwnership` shows when no address in use is given
back, `AddressLeaks` when none is lost; this module has what both need: the
system, the calls of the handlers around the addresses, and what the statements
do to the rows that a request has read.
-/

namespace ZeroVpn

open Library
open Library.Attempt (Issues issues_bind issues_pure issues_lift)

namespace Api

open Db (Uuid Device Server DbError)
open Wg (IpAddr IpAllocator)

/-- The requests that take or give back addresses. -/
def Op.movesAddresses : Op → Bool
  | .create .. | .connect .. | .delete .. | .revokeDevice .. | .deleteUser ..
  | .deleteAccount .. => true
  | _ => false

/-- The state after a start, in which any call may fail.  A process whose start
fails serves no request and has no allocators. -/
def rebooted (g : Bootstrap.Config × List Bool) (s : Sys) : Sys :=
  match (Bootstrap.boot g.1).exec (Program.faulty ApiCmd.sem) (s.stopped g.1, g.2) with
  | ((t, _), .ok ()) => t
  | ((t, _), .error _) => { t with allocators := fun _ => none }

/-- Requests over the shared state, and starts of the process. -/
def addressSystem :
    System Sys Op (Bootstrap.Config × List Bool) ApiCmd ApiCmd.Reply (Except ApiError Unit) where
  body op := op.handler.run
  sem _ c ok s := c.sem ok s
  crash _ s := s
  restart := rebooted

section Calls

variable {α : Type}

theorem checkDeviceLimit_issues (userId : Uuid) :
    Issues Plain (Devices.checkDeviceLimit userId) := by
  refine issues_bind (issues_sql trivial) fun limit => ?_
  refine issues_bind (issues_sql trivial) fun existing => ?_
  exact issues_failIf _ _

theorem pickServer_issues : Issues Plain Devices.pickServer := by
  refine issues_bind (issues_sql trivial) fun active => ?_
  refine issues_bind (issues_okOr _ _) fun server => ?_
  refine issues_bind (issues_call trivial) fun found => ?_
  exact issues_bind (issues_failIf _ _) fun _ => issues_pure server

theorem seedQuota_issues (deviceId : Uuid) (cap : Option Int) :
    Issues Plain (Devices.seedQuota deviceId cap) := by
  cases cap with
  | none =>
      exact issues_pure ()
  | some c =>
      exact issues_bind (issues_sql trivial) fun _ => issues_pure ()

theorem installStored_issues (userId deviceId : Uuid) (publicKey : String) (ip : IpAddr)
    (keepalive : Nat) :
    Issues Plain (Devices.installStored userId deviceId publicKey ip keepalive) := by
  refine issues_bind (issues_sql trivial) fun stored => ?_
  refine issues_bind (issues_okOr _ _) fun _ => ?_
  exact issues_bind (issues_call trivial) fun _ => issues_pure ()

theorem currentUser_issues (id : Uuid) : Issues Plain (currentUser id) := by
  refine issues_bind (issues_sql trivial) fun found => ?_
  refine issues_bind (issues_okOr _ _) fun user => ?_
  exact issues_bind (issues_failIf _ _) fun _ => issues_pure user

theorem requireAdmin_issues (id : Uuid) : Issues Plain (requireAdmin id) := by
  refine issues_bind (currentUser_issues id) fun user => ?_
  exact issues_bind (issues_failIf _ _) fun _ => issues_pure user

/-- Choosing a name makes no call. -/
theorem provisionName_issues {P : ApiCmd → Prop} (body : Devices.ConnectBody) :
    Issues P (Devices.provisionName body) := by
  unfold Devices.provisionName
  dsimp only
  split
  · split
    · exact issues_pure _
    · split
      · exact Attempt.issues_throw _
      · exact issues_pure _
  · exact issues_pure _

theorem reconnect_issues (device : Device) (encrypted : Db.Ciphertext) (wasOffline : Bool) :
    Issues Plain (Devices.reconnect device encrypted wasOffline) := by
  refine issues_bind (issues_okOr _ _) fun _ => ?_
  refine issues_bind (issues_sql trivial) fun found => ?_
  refine issues_bind (issues_okOr _ _) fun server => ?_
  refine issues_bind (issues_lift trivial) fun _ => ?_
  refine issues_bind (issues_call trivial) fun _ => ?_
  split
  · exact issues_lift trivial
  · exact issues_pure ()

theorem namedDevice_issues (userId : Uuid) (deviceId : Option Uuid) :
    Issues Plain (Devices.namedDevice userId deviceId) := by
  unfold Devices.namedDevice
  split
  · exact issues_sql trivial
  · exact issues_pure none

theorem keepLastAdmin_issues (target : Db.User) :
    Issues Plain (Admin.keepLastAdmin target) := by
  unfold Admin.keepLastAdmin Admin.keepAdminFloor
  split
  · exact issues_bind (issues_sql trivial) fun admins => issues_failIf _ _
  · exact issues_pure ()

end Calls

section Rows

variable {db db' : Db}

/-- The account has no live device. -/
def NoLiveDevice (db : Db) (userId : Uuid) : Prop :=
  ∀ d ∈ db.devices, d.userId = userId → d.live = false

instance (db : Db) (userId : Uuid) : Decidable (NoLiveDevice db userId) :=
  inferInstanceAs (Decidable (∀ d ∈ db.devices, _ → _))

/-- The device that was read is still stored there, or its owner is gone. -/
def Remembered (db : Db) (x : Uuid × Uuid × (Uuid × IpAddr)) : Prop :=
  (∃ d ∈ db.devices, d.userId = x.1 ∧ d.id = x.2.1 ∧ placeOf d = x.2.2) ∨
    ∀ u ∈ db.users, u.id ≠ x.1

/-- What of a row counts here. -/
def rowKey (d : Device) : Uuid × Uuid × (Uuid × IpAddr) × Bool :=
  (d.id, d.userId, placeOf d, d.live)

/-- The rows that count are the same. -/
theorem rowKey_mem {devices devices' : List Device}
    (h : devices'.map rowKey = devices.map rowKey) {d : Device} (hd : d ∈ devices) :
    ∃ d' ∈ devices', rowKey d' = rowKey d := by
  have hmem := List.mem_map_of_mem (f := rowKey) hd
  rw [← h] at hmem
  exact List.mem_map.mp hmem

theorem remembered_of_rowKey {x : Uuid × Uuid × (Uuid × IpAddr)}
    (hrows : db'.devices.map rowKey = db.devices.map rowKey) (husers : db'.users = db.users)
    (hx : Remembered db x) : Remembered db' x := by
  rcases hx with ⟨d, hd, huser, hid, hplace⟩ | hgone
  · obtain ⟨d', hd', hkey⟩ := rowKey_mem hrows hd
    simp only [rowKey, Prod.mk.injEq] at hkey
    exact Or.inl ⟨d', hd', hkey.2.1.trans huser, hkey.1.trans hid, hkey.2.2.1.trans hplace⟩
  · refine Or.inr ?_
    rw [husers]
    exact hgone

/-- A plain call changes no row that counts. -/
theorem rows_of_plain {c : ApiCmd} (hc : Plain c) (ok : Bool) (s : Sys) :
    (c.sem ok s).1.allocators = s.allocators ∧
      (c.sem ok s).1.db.devices.map rowKey = s.db.devices.map rowKey ∧
      (c.sem ok s).1.db.users = s.db.users := by
  cases c with
  | sql q =>
      cases ok with
      | false =>
          exact ⟨rfl, rfl, rfl⟩
      | true =>
          cases hrun : q.run s.db with
          | error e =>
              simp only [ApiCmd.sem, hrun]
              exact ⟨trivial, trivial, trivial⟩
          | ok out =>
              obtain ⟨r, db'⟩ := out
              simp only [ApiCmd.sem, hrun]
              cases q with
              | setQuota deviceId cap =>
                  rw [(Db.updateDevices_eq_ok hrun).1]
                  refine ⟨trivial, map_updateWhere ?_ s.db.devices, rfl⟩
                  intro d
                  rfl
              | findUser _ | findUserByEmail _ | deviceLimit _ | monthQuota _
              | countActiveAdmins | listForUser _ | findForUser _ _ | getById _
              | allocatedIpsForServer _ | activePeers | listActiveServers | findServer _
              | defaultKeyState =>
                  cases hrun
                  exact ⟨trivial, rfl, rfl⟩
              | _ =>
                  exact hc.elim
  | allocate _ | tryReserve _ _ | release _ _ _ | newAllocator _ _ _ =>
      exact hc.elim
  | getAllocator _ | wgShow | render =>
      exact ⟨rfl, rfl, rfl⟩
  | addPeer _ _ _ _ | removePeer _ | bringUpWg | encrypt _ | audit _ _ =>
      cases ok <;> exact ⟨rfl, rfl, rfl⟩

section Revoked

variable {p : Device → Bool}
variable (hdevices : db'.devices = updateWhere p (fun d => { d with status := .revoked }) db.devices)

include hdevices in
/-- Revoking devices makes none live. -/
theorem live_of_revoked : ∀ d' ∈ db'.devices, d'.live = true →
    ∃ d ∈ db.devices, d.live = true ∧ d.userId = d'.userId ∧ placeOf d = placeOf d' := by
  intro d' hd' hlive
  rw [hdevices, mem_updateWhere] at hd'
  obtain ⟨d, hd, rfl⟩ := hd'
  by_cases hp : p d = true
  · rw [if_pos hp] at hlive
    simp [Device.live] at hlive
  · rw [if_neg hp] at hlive ⊢
    exact ⟨d, hd, hlive, rfl, rfl⟩

include hdevices in
/-- A device that is not revoked keeps its address. -/
theorem vacant_of_revoked {x : Uuid × IpAddr} (hvacant : Vacant db' x) {d : Device}
    (hd : d ∈ db.devices) (hlive : d.live = true) (hplace : placeOf d = x) : p d = true := by
  by_contra hp
  refine hvacant d ?_ hlive hplace
  rw [hdevices]
  exact mem_updateWhere_of_not hd (by simpa using hp)

include hdevices in
theorem remembered_of_revoked (husers : ∀ u' ∈ db'.users, ∃ u ∈ db.users, u.id = u'.id)
    {x : Uuid × Uuid × (Uuid × IpAddr)} (hx : Remembered db x) : Remembered db' x := by
  rcases hx with ⟨d, hd, hrow⟩ | hgone
  · refine Or.inl ?_
    by_cases hp : p d = true
    · refine ⟨{ d with status := .revoked }, ?_, hrow⟩
      rw [hdevices]
      exact mem_updateWhere_of_pos hd hp
    · refine ⟨d, ?_, hrow⟩
      rw [hdevices]
      exact mem_updateWhere_of_not hd (by simpa using hp)
  · refine Or.inr fun u' hu' => ?_
    obtain ⟨u, hu, hid⟩ := husers u' hu'
    rw [← hid]
    exact hgone u hu

end Revoked

/-- The accounts after a soft deletion. -/
theorem users_of_softDelete {userId : Uuid} {now : Int}
    (hrun : Db.Users.softDelete userId now db = .ok ((), db')) :
    ∀ u' ∈ db'.users, ∃ u ∈ db.users, u.id = u'.id := by
  intro u' hu'
  rw [(Db.Users.softDelete_eq_ok hrun).1, mem_updateWhere] at hu'
  obtain ⟨u, hu, rfl⟩ := hu'
  refine ⟨u, hu, ?_⟩
  split
  · rfl
  · rfl

/-- The rows after the deletion of an account. -/
theorem rows_of_hardDelete {userId : Uuid}
    (hrun : Db.Users.hardDelete userId db = .ok ((), db')) :
    db'.users = db.users.filter (fun u => u.id != userId) ∧
      db'.devices = db.devices.filter (fun d => d.userId != userId) := by
  rw [(Db.write_return_eq_ok hrun).1]
  exact ⟨rfl, rfl⟩

theorem remembered_of_hardDelete {userId : Uuid}
    (hrun : Db.Users.hardDelete userId db = .ok ((), db'))
    {x : Uuid × Uuid × (Uuid × IpAddr)} (hx : Remembered db x) : Remembered db' x := by
  obtain ⟨husers, hdevices⟩ := rows_of_hardDelete hrun
  rcases hx with ⟨d, hd, huser, hrow⟩ | hgone
  · by_cases howner : d.userId = userId
    · refine Or.inr fun u hu => ?_
      rw [husers] at hu
      rw [← huser, howner]
      simpa using (List.mem_filter.mp hu).2
    · refine Or.inl ⟨d, ?_, huser, hrow⟩
      rw [hdevices]
      exact List.mem_filter.mpr ⟨hd, by simpa using howner⟩
  · refine Or.inr fun u hu => hgone u ?_
    rw [husers] at hu
    exact (List.mem_filter.mp hu).1

/-- A device that was read and is still owned is the one that was read. -/
theorem owned_of_remembered {userId deviceId : Uuid} {place : Uuid × IpAddr} {d : Device}
    (h : Remembered db (userId, deviceId, place)) (hd : d ∈ db.devices)
    (howned : Db.Devices.owned userId deviceId d = true) : placeOf d = place := by
  simp only [Db.Devices.owned, Bool.and_eq_true, beq_iff_eq] at howned
  rcases h with ⟨e, he, huser, hid, hplace⟩ | hgone
  · have hsame := row_unique db.valid.devices_id hd he (howned.2.trans hid.symm)
    exact (congrArg placeOf hsame).trans hplace
  · obtain ⟨u, hu, huid⟩ := List.mem_map.mp (db.valid.devices_user d hd)
    exact absurd (huid.trans howned.1) (hgone u hu)

end Rows

/-- The devices that `delete_user` goes on with. -/
def listedDevices (r : Except DbError (List Device)) : List Device :=
  match r with
  | .ok devices => devices
  | .error _ => []

/-- The host before the first start, with no request. -/
def idle (db : Db) :
    Pool Sys Op ApiCmd ApiCmd.Reply (Except ApiError Unit) where
  shared := Sys.off db
  threads := []

/-- Serve requests one after the other, each to its end. -/
def serveAll (first : Nat) : List Op → List (PoolEvent Op (Bootstrap.Config × List Bool))
  | [] => []
  | op :: ops =>
      PoolEvent.spawn op :: List.replicate 15 (PoolEvent.step first true) ++
        serveAll (first + 1) ops

end Api
end ZeroVpn
