import ZeroVpn.Api.Devices

/-!
# Account and administration routes

The handlers of `crates/zerovpn-api/src/routes/admin.rs` and `routes/me.rs`
that change an account or a device of another user, and with it the peers of
the live interface.  `kill_all_sessions` only touches the session watermark,
which is not modelled.
-/

namespace ZeroVpn

open Library

namespace Api

open Db (Uuid Device User Server DbError UserStatus UserRole DeviceStatus)

namespace Admin

/-- Drop the peer of an active device. -/
def removePeerIfActive (d : Device) : Handler Unit :=
  if d.status == .active then do
    let _ ← call (.removePeer d.publicKey)
    pure ()
  else pure ()

/-- The loop of `remove_user_peers`: only active devices have a peer. -/
def removeActivePeers : List Device → Handler Unit
  | [] => pure ()
  | d :: ds => do
      removePeerIfActive d
      removeActivePeers ds

/-- `remove_user_peers`. -/
def removeUserPeers (userId : Uuid) : Handler Unit := do
  match ← trySql (.listForUser userId) with
  | .ok devices => removeActivePeers devices
  | .error _ => pure ()

/-- The keepalive of a server through the per-request cache. -/
def cachedKeepalive (cache : List (Uuid × Nat)) (serverId : Uuid) :
    Handler (Nat × List (Uuid × Nat)) :=
  match cache.lookup serverId with
  | some v => pure (v, cache)
  | none => do
      let v ← Devices.lookupKeepalive serverId
      pure (v, (serverId, v) :: cache)

/-- The loop of `restore_user_peers`. -/
def restoreActivePeers (cache : List (Uuid × Nat)) : List Device → Handler Unit
  | [] => pure ()
  | d :: ds =>
      if d.status != .active then restoreActivePeers cache ds
      else do
        let found ← cachedKeepalive cache d.serverId
        let _ ← call (.addPeer d.publicKey d.allocatedIp none found.1)
        restoreActivePeers found.2 ds

/-- `restore_user_peers`. -/
def restoreUserPeers (userId : Uuid) : Handler Unit := do
  match ← trySql (.listForUser userId) with
  | .ok devices => restoreActivePeers [] devices
  | .error _ => pure ()

/-- Bring the live interface in line with a status change. -/
def syncPeers (targetId : Uuid) (prior status : UserStatus) : Handler Unit :=
  if status == .suspended && prior != .suspended then removeUserPeers targetId
  else if status == .active && prior == .suspended then restoreUserPeers targetId
  else pure ()

/-- `PUT /admin/users/{id}/status`. -/
def setUserStatus (actorId targetId : Uuid) (status : UserStatus) : Handler Unit := do
  let actor ← requireAdmin actorId
  failIf (targetId == actor.id) (.validation [.text "cannot change your own status"])
  let found ← sql (.findUser targetId)
  let target ← okOr found .notFound
  failIf (target.status == .pendingVerification || status == .pendingVerification)
    (.validation [.text
      "pending invitations can only be activated by email verification and Google sign-in"])
  let n : Nat ← sql (.adminSetStatus targetId status)
  failIf (n == 0) .notFound
  syncPeers targetId target.status status
  audit "admin.user_status_changed" (some targetId)

/-- The peer and address cleanup shared by the two account deletions. -/
def forgetDevices (releaser : Releaser) : List Device → Handler Unit
  | [] => pure ()
  | d :: ds => do
      removePeerIfActive d
      releaseAddress releaser d.serverId d.allocatedIp
      forgetDevices releaser ds

/-- The floor of one active administrator. -/
def keepAdminFloor (target : User) (message : String) : Handler Unit :=
  if target.role == .admin && target.status == .active then do
    let admins : Nat ← sql .countActiveAdmins
    failIf (decide (admins ≤ 1)) (.validation [.text message])
  else pure ()

/-- The floor of `delete_user`. -/
def keepLastAdmin (target : User) : Handler Unit :=
  keepAdminFloor target "cannot delete the last remaining admin"

/-- The floor of `set_user_role`, which only a demotion looks at. -/
def keepLastAdminRole (targetId : Uuid) (role : UserRole) : Handler Unit :=
  if role == .user then do
    let found ← sql (.findUser targetId)
    let target ← okOr found .notFound
    keepAdminFloor target "cannot demote the last remaining admin"
  else pure ()

/-- `PUT /admin/users/{id}/role`. -/
def setUserRole (actorId targetId : Uuid) (role : UserRole) : Handler Unit := do
  let actor ← requireAdmin actorId
  failIf (targetId == actor.id) (.validation [.text "cannot change your own role"])
  keepLastAdminRole targetId role
  let n : Nat ← sql (.adminSetRole targetId role)
  failIf (n == 0) .notFound
  audit "admin.user_role_changed" (some targetId)

/-- `DELETE /admin/users/{id}`. -/
def deleteUser (actorId targetId : Uuid) : Handler Unit := do
  let actor ← requireAdmin actorId
  failIf (targetId == actor.id) (.validation [.text "cannot delete yourself"])
  let found ← sql (.findUser targetId)
  let target ← okOr found .notFound
  keepLastAdmin target
  let listed ← trySql (.listForUser target.id)
  let userDevices : List Device :=
    match listed with
    | .ok devices => devices
    | .error _ => []
  let _ ← sql (.hardDelete target.id)
  forgetDevices .deleteUser userDevices
  audit "admin.user_deleted" (some target.id)

/-- `admin_set_device_pause`, behind the two admin pause routes. -/
def setDevicePause (deviceId : Uuid) (target : DeviceStatus) : Handler Unit := do
  let found ← sql (.getById deviceId)
  let device ← okOr found .notFound
  Devices.applyPauseState device target
  audit
    (match target with
      | .paused => "admin.device_paused"
      | _ => "admin.device_unpaused")
    (some deviceId)

/-- `POST /admin/devices/{id}/pause`. -/
def pauseDevice (actorId deviceId : Uuid) : Handler Unit := do
  let _ ← requireAdmin actorId
  setDevicePause deviceId .paused

/-- `POST /admin/devices/{id}/unpause`. -/
def unpauseDevice (actorId deviceId : Uuid) : Handler Unit := do
  let _ ← requireAdmin actorId
  setDevicePause deviceId .active

/-- `DELETE /admin/devices/{id}`. -/
def revokeDevice (actorId deviceId : Uuid) : Handler Unit := do
  let _ ← requireAdmin actorId
  let found ← sql (.getById deviceId)
  let device ← okOr found .notFound
  failIf (device.status == .revoked) (.conflict [.text "device already revoked"])
  Devices.teardownDevice device
  audit "admin.device_revoked" (some deviceId)

/-- `POST /admin/servers/{id}/rotate-keys` on a legacy backend; the draw is the
new server key pair. -/
def rotateServerKeys (actorId serverId : Uuid) (privateKey publicKey : String) :
    Handler Unit := do
  let _ ← requireAdmin actorId
  let found ← sql (.findServer serverId)
  let _ ← okOr found .notFound
  let encrypted ← encrypt privateKey "encrypt server key"
  let _ ← sql (.setKeypair serverId publicKey encrypted)
  -- `reapply_wg_interface`
  let _ ← call .bringUpWg
  audit "admin.server_keys_rotated" (some serverId)

end Admin

namespace Me

/-- `DELETE /me/account`. -/
def deleteAccount (userId : Uuid) (now : Int) : Handler Unit := do
  let user ← currentUser userId
  let _ ← sql (.softDelete user.id now)
  audit "user.deleted" (some user.id)
  match ← trySql (.listForUser user.id) with
  | .ok devices => Admin.forgetDevices .deleteAccount devices
  | .error _ => pure ()

end Me

end Api
end ZeroVpn
