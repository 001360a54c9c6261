import ZeroVpn.Api.AccountEffects

/-!
# Runs of completed operations on a legacy backend

An `Op` is a request, a run of the quota sweep or a restart of the process,
executed from its first call to its last while the database and the interface
work.  `complete` is the state after it and `complete_effect` lists what it can
do to the fleet; every invariant of a run is derived from that list.
-/

namespace ZeroVpn

open Library
open Library.Attempt (wp)

namespace Api

open Db (Uuid Device User Server DbError UserStatus DeviceStatus)

/-- The operations that can change an account, a device or a peer. -/
inductive Op where
  | create (userId : Uuid) (body : Devices.CreateBody) (draw : Devices.Draw)
  | connect (userId : Uuid) (body : Devices.ConnectBody) (wasOffline : Bool)
      (draw : Devices.Draw)
  | rotateKeys (userId deviceId : Uuid) (draw : Devices.Draw)
  | pause (userId deviceId : Uuid)
  | unpause (userId deviceId : Uuid)
  | delete (userId deviceId : Uuid)
  | pauseDevice (actorId deviceId : Uuid)
  | unpauseDevice (actorId deviceId : Uuid)
  | revokeDevice (actorId deviceId : Uuid)
  | setUserStatus (actorId targetId : Uuid) (status : UserStatus)
  | deleteUser (actorId targetId : Uuid)
  | deleteAccount (userId : Uuid) (now : Int)
  | rotateServerKeys (actorId serverId : Uuid) (privateKey publicKey : String)
  | quotaSweep (now : Int)
  | restart (cfg : Bootstrap.Config)

/-- A host on which the API has not been started yet. -/
def Sys.off (db : Db) : Sys where
  db := db
  allocators := fun _ => none
  interface := Interface.empty
  up := false
  inFlight := []

/-- What is left when the process stops: the database, and the interface if the
host keeps it. -/
def Sys.stopped (s : Sys) (cfg : Bootstrap.Config) : Sys where
  db := s.db
  allocators := fun _ => none
  interface := if cfg.interfaceSurvived then s.interface else Interface.empty
  up := cfg.interfaceSurvived && s.up
  inFlight := []

namespace Op

/-- The program of an operation. -/
def handler : Op → Handler Unit
  | create userId body draw => Devices.create userId body draw
  | connect userId body wasOffline draw => Devices.connect userId body wasOffline draw
  | rotateKeys userId deviceId draw => Devices.rotateKeys userId deviceId draw
  | pause userId deviceId => Devices.pause userId deviceId
  | unpause userId deviceId => Devices.unpause userId deviceId
  | delete userId deviceId => Devices.delete userId deviceId
  | pauseDevice actorId deviceId => Admin.pauseDevice actorId deviceId
  | unpauseDevice actorId deviceId => Admin.unpauseDevice actorId deviceId
  | revokeDevice actorId deviceId => Admin.revokeDevice actorId deviceId
  | setUserStatus actorId targetId status => Admin.setUserStatus actorId targetId status
  | deleteUser actorId targetId => Admin.deleteUser actorId targetId
  | deleteAccount userId now => Me.deleteAccount userId now
  | rotateServerKeys actorId serverId privateKey publicKey =>
      Admin.rotateServerKeys actorId serverId privateKey publicKey
  | quotaSweep now => Quota.runOnce now
  | restart cfg => Bootstrap.boot cfg

/-- The state in which the program of an operation starts. -/
def start (s : Sys) : Op → Sys
  | restart cfg => s.stopped cfg
  | _ => s

/-- The state after an operation, and its outcome. -/
def outcome (s : Sys) (op : Op) : Sys × Except ApiError Unit :=
  op.handler.exec perform (op.start s)

def isRestart : Op → Bool
  | restart _ => true
  | _ => false

/-- A request is completed by its answer, also by an error; a restart is
completed when the process serves requests again. -/
def Completes (s : Sys) (op : Op) : Prop :=
  op.isRestart = true → (op.outcome s).2 = .ok ()

instance (s : Sys) (op : Op) : Decidable (op.Completes s) :=
  inferInstanceAs (Decidable (_ → _))

end Op

/-- The state after a completed operation. -/
def complete (s : Sys) (op : Op) : Sys := (op.outcome s).1

/-- The ways in which an operation changes the fleet, besides leaving it as it
is. -/
def Effect (s t : Sys) : Op → Prop
  | .create .. => ∃ d, Provisioned s.fleet t.fleet d
  | .connect userId body .. =>
      (∃ d, Provisioned s.fleet t.fleet d) ∨
        ∃ d ∈ s.db.devices, d.userId = userId ∧ body.deviceId = some d.id ∧
          d.status ≠ .revoked ∧ Readable d ∧ s.fleet.ActiveOwner (stationOf d) ∧
          Touch s.fleet t.fleet (stationOf d) (stationOf d) ∧
          t.fleet.Served (stationOf d)
  | .rotateKeys userId deviceId draw =>
      ∃ d ∈ s.fleet.stations, d.userId = userId ∧ d.id = deviceId ∧
        d.status ≠ .revoked ∧ s.fleet.ActiveOwner d ∧
        Touch s.fleet t.fleet d { d with publicKey := draw.publicKey } ∧
        t.fleet.Served { d with publicKey := draw.publicKey }
  | .pause .. | .pauseDevice .. =>
      ∃ d ∈ s.fleet.stations, Settled s.fleet t.fleet d .paused
  | .unpause .. =>
      ∃ d ∈ s.fleet.stations, s.fleet.ActiveOwner d ∧ Settled s.fleet t.fleet d .active
  | .unpauseDevice actorId deviceId =>
      s.IsAdmin actorId ∧ ∃ d ∈ s.fleet.stations, d.id = deviceId ∧ d.status ≠ .revoked ∧
        Settled s.fleet t.fleet d .active
  | .delete .. | .revokeDevice .. =>
      ∃ d ∈ s.fleet.stations, Settled s.fleet t.fleet d .revoked
  | .setUserStatus actorId targetId status =>
      s.IsAdmin actorId ∧ targetId ≠ actorId ∧
        ∃ a, a.id = targetId ∧ StatusChanged s.fleet t.fleet a status
  | .deleteUser actorId targetId =>
      s.IsAdmin actorId ∧ targetId ≠ actorId ∧ Erased s.fleet t.fleet targetId
  | .deleteAccount userId _ => SoftDeleted s.fleet t.fleet userId
  | .rotateServerKeys actorId serverId .. =>
      s.IsAdmin actorId ∧ serverId ∈ s.db.servers.map Server.id ∧
        t.fleet = { s.fleet with interface := Interface.empty }
  | .quotaSweep _ => Swept s t
  | .restart cfg => Rebooted cfg (s.stopped cfg) t

/-- A completed operation leaves the fleet as it is or has its effect. -/
theorem complete_effect {s : Sys} {op : Op} (h : op.Completes s) :
    (complete s op).fleet = s.fleet ∨ Effect s (complete s op) op := by
  cases op with
  | create userId body draw =>
      exact create_wp userId body draw
  | connect userId body wasOffline draw =>
      exact or_assoc.mp (connect_wp userId body wasOffline draw)
  | rotateKeys userId deviceId draw =>
      exact rotateKeys_wp userId deviceId draw
  | pause userId deviceId =>
      exact pause_wp userId deviceId
  | unpause userId deviceId =>
      exact unpause_wp userId deviceId
  | delete userId deviceId =>
      exact delete_wp userId deviceId
  | pauseDevice actorId deviceId =>
      exact pauseDevice_wp actorId deviceId
  | unpauseDevice actorId deviceId =>
      exact unpauseDevice_wp actorId deviceId
  | revokeDevice actorId deviceId =>
      exact revokeDevice_wp actorId deviceId
  | setUserStatus actorId targetId status =>
      exact setUserStatus_wp actorId targetId status
  | deleteUser actorId targetId =>
      exact deleteUser_wp actorId targetId
  | deleteAccount userId now =>
      exact deleteAccount_wp userId now
  | rotateServerKeys actorId serverId privateKey publicKey =>
      exact rotateServerKeys_wp actorId serverId privateKey publicKey
  | quotaSweep now =>
      exact Or.inr (runOnce_wp now s)
  | restart cfg =>
      exact Or.inr (boot_wp cfg (s.stopped cfg) (h rfl))

end Api
end ZeroVpn
