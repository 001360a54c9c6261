import ZeroVpn.Api.AddressRequests
import ZeroVpn.Api.Statements

/-!
# Requests on devices

The requests on a device of the owner and of an administrator, together with
the quota sweep, as requests of a pool.  `deviceOp_work` says once which calls
each of them can make.
-/

namespace ZeroVpn

open Library
open Library.Attempt (Issues issues_bind issues_pure issues_lift issues_throw)

namespace Api

open Db (Uuid Device User DeviceStatus)

/-- The requests on a device, and the sweep. -/
def Op.onDevice : Op → Bool
  | connect .. | rotateKeys .. | pause .. | unpause .. | delete .. => true
  | pauseDevice .. | unpauseDevice .. | revokeDevice .. => true
  | quotaSweep _ => true
  | _ => false

abbrev DeviceOp := { op : Op // op.onDevice = true }

namespace DeviceOp

def handler (op : DeviceOp) : Handler Unit := op.1.handler

/-- The quota sweep. -/
def isSweep (op : DeviceOp) : Bool :=
  match op.1 with
  | .quotaSweep _ => true
  | _ => false

end DeviceOp

section Calls

/-- The calls of a request on a device, and those of the sweep: only requests
use `set_status`, only the sweep its two marks, and nothing erases a row. -/
def DeviceWork (sweep : Bool) : ApiCmd → Prop
  | .sql (.setStatus ..) => sweep = false
  | .sql (.markAutoPaused _) => sweep = true
  | .sql (.markResumed _) => sweep = true
  | .sql (.hardDelete _) => False
  | .sql (.softDelete ..) => False
  | _ => True

variable {sweep : Bool}

theorem not_hardDelete_of_work {q : DbCall} {userId : Uuid} (h : DeviceWork sweep (.sql q)) :
    q ≠ .hardDelete userId := by
  rintro rfl
  exact h

theorem currentUser_work (id : Uuid) : Issues (DeviceWork sweep) (currentUser id) := by
  refine issues_bind (issues_sql trivial) fun found => ?_
  refine issues_bind (issues_okOr _ _) fun user => ?_
  exact issues_bind (issues_failIf _ _) fun _ => issues_pure user

theorem requireAdmin_work (id : Uuid) : Issues (DeviceWork sweep) (requireAdmin id) := by
  refine issues_bind (currentUser_work id) fun user => ?_
  exact issues_bind (issues_failIf _ _) fun _ => issues_pure user

theorem checkDeviceLimit_work (userId : Uuid) :
    Issues (DeviceWork sweep) (Devices.checkDeviceLimit userId) := by
  refine issues_bind (issues_sql trivial) fun limit => ?_
  refine issues_bind (issues_sql trivial) fun existing => ?_
  exact issues_failIf _ _

theorem pickServer_work : Issues (DeviceWork sweep) Devices.pickServer := by
  refine issues_bind (issues_sql trivial) fun active => ?_
  refine issues_bind (issues_okOr _ _) fun server => ?_
  refine issues_bind (issues_call trivial) fun found => ?_
  exact issues_bind (issues_failIf _ _) fun _ => issues_pure server

theorem insertDevice_work (draw : Devices.Draw) (new : Db.Devices.NewDevice) :
    Issues (DeviceWork sweep) (Devices.insertDevice draw new) := by
  refine issues_bind (issues_call trivial) fun stored => ?_
  split
  · exact issues_pure _
  · exact issues_bind (issues_call trivial) fun _ => issues_throw _

theorem provision_work (user : User) (body : Devices.ConnectBody) (draw : Devices.Draw) :
    Issues (DeviceWork sweep) (Devices.provision user body draw) := by
  refine issues_bind (checkDeviceLimit_work _) fun _ => ?_
  refine issues_bind (provisionName_issues body) fun name => ?_
  refine issues_bind pickServer_work fun server => ?_
  refine issues_bind (issues_lift trivial) fun ip => ?_
  refine issues_bind (issues_lift trivial) fun encrypted => ?_
  refine issues_bind (insertDevice_work draw _) fun deviceId => ?_
  refine issues_bind (issues_lift trivial) fun _ => ?_
  refine issues_bind (issues_lift trivial) fun _ => ?_
  -- `installStored`
  refine issues_bind (issues_sql trivial) fun stored => ?_
  refine issues_bind (issues_okOr _ _) fun _ => ?_
  exact issues_bind (issues_call trivial) fun _ => issues_pure ()

theorem reconnect_work (device : Device) (encrypted : Db.Ciphertext) (wasOffline : Bool) :
    Issues (DeviceWork sweep) (Devices.reconnect device encrypted wasOffline) := by
  refine issues_bind (issues_okOr _ _) fun _ => ?_
  refine issues_bind (issues_sql trivial) fun found => ?_
  refine issues_bind (issues_okOr _ _) fun server => ?_
  refine issues_bind (issues_lift trivial) fun _ => ?_
  refine issues_bind (issues_call trivial) fun _ => ?_
  split
  · exact issues_lift trivial
  · exact issues_pure ()

theorem connect_work (userId : Uuid) (body : Devices.ConnectBody) (wasOffline : Bool)
    (draw : Devices.Draw) : Issues (DeviceWork sweep) (Devices.connect userId body wasOffline draw) := by
  have hnamed : ∀ user : User, Issues (DeviceWork sweep) (Devices.namedDevice user.id body.deviceId) := by
    intro user
    unfold Devices.namedDevice
    split
    · exact issues_sql trivial
    · exact issues_pure none
  refine issues_bind (currentUser_work userId) fun user => ?_
  refine issues_bind (hnamed user) fun device => ?_
  split
  · exact reconnect_work _ _ _
  · exact provision_work user body draw

theorem rotateKeys_work (userId deviceId : Uuid) (draw : Devices.Draw) :
    Issues (DeviceWork sweep) (Devices.rotateKeys userId deviceId draw) := by
  refine issues_bind (currentUser_work userId) fun user => ?_
  refine issues_bind (issues_sql trivial) fun found => ?_
  refine issues_bind (issues_okOr _ _) fun device => ?_
  refine issues_bind (issues_failIf _ _) fun _ => ?_
  refine issues_bind (issues_sql trivial) fun foundServer => ?_
  refine issues_bind (issues_okOr _ _) fun server => ?_
  refine issues_bind (issues_sql trivial) fun n => ?_
  refine issues_bind (issues_failIf _ _) fun _ => ?_
  refine issues_bind (issues_lift trivial) fun encrypted => ?_
  refine issues_bind (issues_sql trivial) fun _ => ?_
  refine issues_bind (issues_call trivial) fun _ => ?_
  refine issues_bind (issues_call trivial) fun _ => ?_
  refine issues_bind (issues_lift trivial) fun _ => ?_
  refine issues_bind (issues_lift trivial) fun _ => ?_
  refine issues_bind (issues_sql trivial) fun stored => ?_
  exact issues_bind (issues_okOr _ _) fun _ => issues_pure ()

theorem teardownDevice_work (device : Device) :
    Issues (DeviceWork false) (Devices.teardownDevice device) := by
  refine issues_bind (issues_sql rfl) fun n => ?_
  refine issues_bind (issues_failIf _ _) fun _ => ?_
  refine issues_bind (issues_releaseAddress trivial trivial) fun _ => ?_
  exact issues_bind (issues_call trivial) fun _ => issues_pure ()

theorem lookupKeepalive_work (serverId : Uuid) :
    Issues (DeviceWork sweep) (Devices.lookupKeepalive serverId) := by
  refine issues_bind (issues_call trivial) fun found => ?_
  split
  · exact issues_pure _
  · exact issues_pure _
  · exact issues_pure _

theorem reflectStatus_work (device : Device) (target : DeviceStatus) :
    Issues (DeviceWork sweep) (Devices.reflectStatus device target) := by
  cases target with
  | paused =>
      exact issues_bind (issues_call trivial) fun _ => issues_pure ()
  | active =>
      refine issues_bind (lookupKeepalive_work _) fun keepalive => ?_
      exact issues_bind (issues_call trivial) fun _ => issues_pure ()
  | revoked =>
      exact issues_pure ()

theorem applyPauseState_work (device : Device) (target : DeviceStatus) :
    Issues (DeviceWork false) (Devices.applyPauseState device target) := by
  refine issues_bind (issues_failIf _ _) fun _ => ?_
  refine issues_bind (issues_sql rfl) fun n => ?_
  exact issues_bind (issues_failIf _ _) fun _ => reflectStatus_work device target

theorem setPauseState_work (userId deviceId : Uuid) (target : DeviceStatus) :
    Issues (DeviceWork false) (Devices.setPauseState userId deviceId target) := by
  refine issues_bind (issues_sql trivial) fun found => ?_
  refine issues_bind (issues_okOr _ _) fun device => ?_
  exact issues_bind (applyPauseState_work device target) fun _ => issues_lift trivial

theorem setDevicePause_work (deviceId : Uuid) (target : DeviceStatus) :
    Issues (DeviceWork false) (Admin.setDevicePause deviceId target) := by
  refine issues_bind (issues_sql trivial) fun found => ?_
  refine issues_bind (issues_okOr _ _) fun device => ?_
  exact issues_bind (applyPauseState_work device target) fun _ => issues_lift trivial

theorem resumeAll_work (ds : List Device) (cache : List (Uuid × Nat)) :
    Issues (DeviceWork true) (Quota.resumeAll cache ds) := by
  induction ds generalizing cache with
  | nil =>
      exact issues_pure ()
  | cons d ds ih =>
      have hkeepalive : Issues (DeviceWork true) (Admin.cachedKeepalive cache d.serverId) := by
        unfold Admin.cachedKeepalive
        split
        · exact issues_pure _
        · exact issues_bind (lookupKeepalive_work _) fun v => issues_pure _
      refine issues_bind (issues_sql rfl) fun n => ?_
      split
      · exact ih cache
      · refine issues_bind hkeepalive fun found => ?_
        exact issues_bind (issues_call trivial) fun _ => ih found.2

theorem pauseAll_work (ds : List Device) : Issues (DeviceWork true) (Quota.pauseAll ds) := by
  induction ds with
  | nil =>
      exact issues_pure ()
  | cons d ds ih =>
      refine issues_bind (issues_sql rfl) fun n => ?_
      split
      · exact ih
      · exact issues_bind (issues_call trivial) fun _ => ih

theorem runOnce_work (now : Int) : Issues (DeviceWork true) (Quota.runOnce now) := by
  refine issues_bind (issues_sql trivial) fun _ => ?_
  refine issues_bind (issues_sql trivial) fun _ => ?_
  refine issues_bind (issues_sql trivial) fun resumable => ?_
  refine issues_bind (resumeAll_work _ _) fun _ => ?_
  refine issues_bind (issues_sql trivial) fun exceeded => ?_
  exact pauseAll_work _

/-- What the requests on a device call. -/
theorem deviceOp_work (op : DeviceOp) : Issues (DeviceWork op.isSweep) op.handler := by
  obtain ⟨op, hop⟩ := op
  cases op with
  | connect userId body wasOffline draw =>
      exact connect_work userId body wasOffline draw
  | rotateKeys userId deviceId draw =>
      exact rotateKeys_work userId deviceId draw
  | pause userId deviceId =>
      exact issues_bind (currentUser_work userId) fun _ => setPauseState_work _ _ _
  | unpause userId deviceId =>
      exact issues_bind (currentUser_work userId) fun _ => setPauseState_work _ _ _
  | delete userId deviceId =>
      refine issues_bind (currentUser_work userId) fun user => ?_
      refine issues_bind (issues_sql trivial) fun found => ?_
      refine issues_bind (issues_okOr _ _) fun device => ?_
      exact issues_bind (teardownDevice_work device) fun _ => issues_lift trivial
  | pauseDevice actorId deviceId =>
      exact issues_bind (requireAdmin_work actorId) fun _ => setDevicePause_work _ _
  | unpauseDevice actorId deviceId =>
      exact issues_bind (requireAdmin_work actorId) fun _ => setDevicePause_work _ _
  | revokeDevice actorId deviceId =>
      refine issues_bind (requireAdmin_work actorId) fun _ => ?_
      refine issues_bind (issues_sql trivial) fun found => ?_
      refine issues_bind (issues_okOr _ _) fun device => ?_
      refine issues_bind (issues_failIf _ _) fun _ => ?_
      exact issues_bind (teardownDevice_work device) fun _ => issues_lift trivial
  | quotaSweep now =>
      exact runOnce_work now
  | _ =>
      cases hop

end Calls

/-- Every request on a device of the pool only makes its own calls. -/
abbrev DeviceInv (p : RequestPool DeviceOp) : Prop :=
  RequestInv DeviceOp.handler (fun op => DeviceWork op.isSweep) p

theorem deviceInv_idle (s : Sys) : DeviceInv (requestIdle s) := requestInv_idle _ _ s

theorem deviceInv_step (p : RequestPool DeviceOp) (e : PoolEvent DeviceOp Unit)
    (h : DeviceInv p) : DeviceInv (poolStep (requestSystem DeviceOp.handler) p e) :=
  requestInv_step deviceOp_work p e h

end Api
end ZeroVpn
