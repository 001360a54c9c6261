import ZeroVpn.Api.Commands

/-!
# Device routes

The handlers of `crates/zerovpn-api/src/routes/devices.rs` and the extractors
of `extractors/auth.rs` they start with, statement by statement.  A request
names the user of its session; identifiers and key pairs that the handler
draws at random are arguments.  Response bodies, log lines and notifications
are not modelled: no step depends on them.
-/

namespace ZeroVpn

open Library

namespace Api

open Db (Uuid Device User Server DbError Ciphertext UserStatus UserRole DeviceStatus)
open Wg (IpAddr AllocError)

/-- `CurrentUser`: the session's user, which must be present and active. -/
def currentUser (id : Uuid) : Handler User := do
  let found ← sql (.findUser id)
  let user ← okOr found .unauthorized
  failIf (user.status != .active) .forbidden
  pure user

/-- `RequireAdmin`. -/
def requireAdmin (id : Uuid) : Handler User := do
  let user ← currentUser id
  failIf (user.role != .admin) .forbidden
  pure user

namespace Devices

/-- `PERSISTENT_KEEPALIVE`. -/
def persistentKeepalive : Nat := 30

inductive DeviceOs where
  | ios
  | android
  | macos
  | windows
  | linux
  | other
  deriving DecidableEq, Repr

inductive DeviceType where
  | phone
  | tablet
  | laptop
  | desktop
  | tv
  | router
  | watch
  | iot
  | server
  | other
  deriving DecidableEq, Repr

def DeviceOs.label : DeviceOs → String
  | .ios => "iOS"
  | .android => "Android"
  | .macos => "macOS"
  | .windows => "Windows"
  | .linux => "Linux"
  | .other => "Device"

def DeviceType.label : DeviceType → String
  | .phone => "phone"
  | .tablet => "tablet"
  | .laptop => "laptop"
  | .desktop => "desktop"
  | .tv => "TV"
  | .router => "router"
  | .watch => "watch"
  | .iot => "IoT"
  | .server => "server"
  | .other => ""

/-- `default_device_name`. -/
def defaultDeviceName (os : DeviceOs) (dt : DeviceType) : String :=
  if dt.label.isEmpty then os.label else os.label ++ " " ++ dt.label

/-- What a request draws at random for a new device. -/
structure Draw where
  id : Uuid
  privateKey : String
  publicKey : String
  deriving DecidableEq, Repr

structure CreateBody where
  name : String
  /-- The requested address; `some none` is text that is not an address. -/
  allocatedIp : Option (Option IpAddr)
  monthlyByteCap : Option Int
  deriving DecidableEq, Repr

structure ConnectBody where
  deviceId : Option Uuid
  /-- The name after `str::trim`. -/
  name : Option String
  os : Option DeviceOs
  deviceType : Option DeviceType
  deriving DecidableEq, Repr

/-- The cast `i32 as usize` on a 64-bit target. -/
def asUsize (n : Int) : Nat := (n % 2 ^ 64).toNat

/-- The per-user device cap, checked by `create` and `connect`. -/
def checkDeviceLimit (userId : Uuid) : Handler Unit := do
  let limit : Int ← sql (.deviceLimit userId)
  let existing : List Device ← sql (.listForUser userId)
  failIf (decide (asUsize limit ≤ existing.length))
    (.conflict [.text "device limit reached (", .nat (asUsize limit),
      .text " active devices per user)"])

/-- The first active server and its allocator. -/
def pickServer : Handler Server := do
  let active : List Server ← sql .listActiveServers
  let server ← okOr active.head? (.internal [.text "no active servers"])
  let hasAllocator : Bool ← call (.getAllocator server.id)
  failIf (!hasAllocator) (.internal [.text "server allocator missing"])
  pure server

/-- `allocate_auto`.  An allocation that does not return leaves the request
hanging: it issues no further call. -/
def allocateAuto (serverId : Uuid) : Handler IpAddr :=
  Attempt.lift (.allocate serverId) fun r =>
    match r with
    | some (.ok ip) => .ok ip
    | some (.error _) => .error (.conflict [.text "server IP pool exhausted"])
    | none => .error (.internal [.text "allocate does not return"])

/-- `reserve_specific`. -/
def reserveSpecific (serverId : Uuid) (raw : Option IpAddr) : Handler IpAddr :=
  match raw with
  | none => throw (.validation [.text "invalid IP"])
  | some parsed =>
      Attempt.lift (.tryReserve serverId parsed) fun r =>
        match r with
        | .ok () => .ok parsed
        | .error .alreadyAllocated =>
            .error (.conflict [.ip parsed, .text " is already assigned to another device"])
        | .error .outOfRange =>
            .error (.validation [.ip parsed, .text " is outside the server's subnet"])
        | .error .reserved =>
            .error (.validation [.ip parsed,
              .text " is a reserved address (network / broadcast / gateway)"])
        | .error .exhausted =>
            .error (.conflict [.text "server IP pool exhausted"])
        | .error (.familyMismatch want got) =>
            .error (.validation [.text "IP family mismatch: server expects ", .text want,
              .text ", got ", .text got])

/-- The address of a new device: the requested one or the next free one. -/
def takeAddress (serverId : Uuid) (requested : Option (Option IpAddr)) : Handler IpAddr :=
  match requested with
  | some raw => reserveSpecific serverId raw
  | none => allocateAuto serverId

/-- Store the row of a new device; a failed insert gives the address back. -/
def insertDevice (draw : Draw) (new : Db.Devices.NewDevice) : Handler Uuid := do
  match ← trySql (.createDevice draw.id new) with
  | .ok id => pure id
  | .error e => do
      let _ ← call (.release .provision new.serverId new.allocatedIp)
      throw (.database e)

/-- The cap of a new device: the requested one, bounded by the account's. -/
def effectiveCap (requested userCap : Option Int) : Option Int :=
  match requested.filter (fun c => 0 < c), userCap.filter (fun c => 0 < c) with
  | some req, some uc => some (min req uc)
  | some req, none => some req
  | none, some uc => some uc
  | none, none => none

/-- Store the cap of a new device, if it has one. -/
def seedQuota (deviceId : Uuid) (cap : Option Int) : Handler Unit :=
  match cap with
  | some c => do
      let _ ← sql (.setQuota deviceId (some c))
      pure ()
  | none => pure ()

/-- Hand a stored device to the running interface. -/
def installStored (userId deviceId : Uuid) (publicKey : String) (ip : IpAddr)
    (keepalive : Nat) : Handler Unit := do
  let stored ← sql (.findForUser userId deviceId)
  let _ ← okOr stored (.internal [.text "just-created device missing"])
  let _ ← call (.addPeer publicKey ip none keepalive)
  pure ()

/-- `POST /devices`. -/
def create (userId : Uuid) (body : CreateBody) (draw : Draw) : Handler Unit := do
  let user ← currentUser userId
  failIf (decide (body.name.utf8ByteSize < 1) || decide (64 < body.name.utf8ByteSize))
    (.validation [.text "name: length is not in 1..=64"])
  checkDeviceLimit user.id
  let server ← pickServer
  let ip ← takeAddress server.id body.allocatedIp
  let privateKeyEncrypted ← encrypt draw.privateKey "encrypt private key"
  let deviceId ← insertDevice draw
    { userId := user.id
      serverId := server.id
      name := body.name
      publicKey := draw.publicKey
      presharedKeyEncrypted := none
      allocatedIp := ip
      privateKeyEncrypted := some privateKeyEncrypted }
  let quota ← sql (.monthQuota user.id)
  seedQuota deviceId (effectiveCap body.monthlyByteCap quota.join)
  audit "device.created" (some deviceId)
  render
  installStored user.id deviceId draw.publicKey ip (asU16 server.persistentKeepalive)

/-- The name of an app-provisioned device. -/
def provisionName (body : ConnectBody) : Handler String :=
  let fallback := defaultDeviceName (body.os.getD .other) (body.deviceType.getD .other)
  match body.name with
  | some n =>
      if n.isEmpty then pure fallback
      else if 64 < n.length then
        throw (.validation [.text "name must be 1–64 characters"])
      else pure n
  | none => pure fallback

/-- The provisioning half of `POST /devices/connect`. -/
def provision (user : User) (body : ConnectBody) (draw : Draw) : Handler Unit := do
  checkDeviceLimit user.id
  let name ← provisionName body
  let server ← pickServer
  let ip ← allocateAuto server.id
  let privateKeyEncrypted ← encrypt draw.privateKey "encrypt private key"
  let deviceId ← insertDevice draw
    { userId := user.id
      serverId := server.id
      name := name
      publicKey := draw.publicKey
      presharedKeyEncrypted := none
      allocatedIp := ip
      privateKeyEncrypted := some privateKeyEncrypted }
  audit "device.connected" (some deviceId)
  render
  installStored user.id deviceId draw.publicKey ip (asU16 server.persistentKeepalive)

/-- The reconnect half of `POST /devices/connect`.  `wasOffline` is the
comparison of the last handshake with the clock. -/
def reconnect (device : Device) (encrypted : Ciphertext) (wasOffline : Bool) :
    Handler Unit := do
  let _ ← okOr encrypted.decrypt (.internal [.text "decrypt private key"])
  let found ← sql (.findServer device.serverId)
  let server ← okOr found (.internal [.text "device's server missing"])
  render
  let _ ← call (.addPeer device.publicKey device.allocatedIp none
    (asU16 server.persistentKeepalive))
  if wasOffline then audit "device.reconnected" (some device.id) else pure ()

/-- The device that `connect` may serve again: not revoked, with a stored
key. -/
def liveDevice (device : Option Device) : Option (Device × Ciphertext) :=
  match device with
  | some d =>
      if d.status != .revoked then d.privateKeyEncrypted.map fun c => (d, c) else none
  | none => none

/-- The device a connect request names. -/
def namedDevice (userId : Uuid) (deviceId : Option Uuid) : Handler (Option Device) :=
  match deviceId with
  | some id => sql (.findForUser userId id)
  | none => pure none

/-- `POST /devices/connect`. -/
def connect (userId : Uuid) (body : ConnectBody) (wasOffline : Bool) (draw : Draw) :
    Handler Unit := do
  let user ← currentUser userId
  let device ← namedDevice user.id body.deviceId
  match liveDevice device with
  | some (device, encrypted) => reconnect device encrypted wasOffline
  | none => provision user body draw

/-- `POST /devices/{id}/rotate-keys`. -/
def rotateKeys (userId deviceId : Uuid) (draw : Draw) : Handler Unit := do
  let user ← currentUser userId
  let found ← sql (.findForUser user.id deviceId)
  let device ← okOr found .notFound
  failIf (device.status == .revoked)
    (.conflict [.text "revoked device cannot rotate keys"])
  let foundServer ← sql (.findServer device.serverId)
  let server ← okOr foundServer (.internal [.text "device's server missing"])
  let n : Nat ← sql (.updatePublicKey user.id deviceId draw.publicKey)
  failIf (n == 0) .notFound
  let encrypted ← encrypt draw.privateKey "encrypt rotated key"
  let _ ← sql (.setPrivateKeyEncrypted user.id deviceId (some encrypted))
  let _ ← call (.removePeer device.publicKey)
  let _ ← call (.addPeer draw.publicKey device.allocatedIp none
    (asU16 server.persistentKeepalive))
  render
  audit "device.keys_rotated" (some deviceId)
  let stored ← sql (.findForUser user.id deviceId)
  let _ ← okOr stored (.internal [.text "rotated device missing"])
  pure ()

/-- `teardown_device`, shared by the owner's and the admin's revocation. -/
def teardownDevice (device : Device) : Handler Unit := do
  let n : Nat ← sql (.setStatus device.userId device.id .revoked)
  failIf (n == 0) .notFound
  releaseAddress .teardownDevice device.serverId device.allocatedIp
  let _ ← call (.removePeer device.publicKey)
  pure ()

/-- `DELETE /devices/{id}`. -/
def delete (userId deviceId : Uuid) : Handler Unit := do
  let user ← currentUser userId
  let found ← sql (.findForUser user.id deviceId)
  let device ← okOr found .notFound
  teardownDevice device
  audit "device.revoked" (some deviceId)

/-- The keepalive of a server, with the historical default when the lookup
fails. -/
def lookupKeepalive (serverId : Uuid) : Handler Nat := do
  match ← trySql (.findServer serverId) with
  | .ok (some server) => pure (asU16 server.persistentKeepalive)
  | .ok none => pure persistentKeepalive
  | .error _ => pure persistentKeepalive

/-- Reflect a new status onto the running interface. -/
def reflectStatus (device : Device) (target : DeviceStatus) : Handler Unit :=
  match target with
  | .paused => do
      let _ ← call (.removePeer device.publicKey)
      pure ()
  | .active => do
      let keepalive ← lookupKeepalive device.serverId
      let _ ← call (.addPeer device.publicKey device.allocatedIp none keepalive)
      pure ()
  | .revoked => pure ()

/-- `apply_pause_state`. -/
def applyPauseState (device : Device) (target : DeviceStatus) : Handler Unit := do
  failIf (device.status == .revoked)
    (.conflict [.text "revoked device cannot change status"])
  let n : Nat ← sql (.setStatus device.userId device.id target)
  failIf (n == 0) .notFound
  reflectStatus device target

/-- `set_pause_state`. -/
def setPauseState (userId deviceId : Uuid) (target : DeviceStatus) : Handler Unit := do
  let found ← sql (.findForUser userId deviceId)
  let device ← okOr found .notFound
  applyPauseState device target
  audit
    (match target with
      | .paused => "device.paused"
      | .active => "device.unpaused"
      | .revoked => "device.status_changed")
    (some deviceId)

/-- `POST /devices/{id}/pause`. -/
def pause (userId deviceId : Uuid) : Handler Unit := do
  let user ← currentUser userId
  setPauseState user.id deviceId .paused

/-- `POST /devices/{id}/unpause`. -/
def unpause (userId deviceId : Uuid) : Handler Unit := do
  let user ← currentUser userId
  setPauseState user.id deviceId .active

end Devices

end Api
end ZeroVpn
