import ZeroVpn.Api.FleetChanges
import ZeroVpn.Wg.Control

/-!
# Who has a tunnel

The three statements about the interface, over whole runs of completed
operations.  None of them holds in every run: for each one a definition lists
which operations have to be kept out, as a condition on the state before the
operation, a theorem shows that the statement then holds in every state of the
run, and a short run shows that it fails without the condition.

WireGuard keeps an address for one peer only, and gives it to the peer that it
was added for last.  The last section says that `Interface` need not know: on one
server no other peer has the address that a device is added with.
-/

namespace ZeroVpn

open Library

namespace Api

open Db (Uuid Device UserStatus DeviceStatus)

section Sample

/-- Keys of the samples: 32 equal bytes in base64. -/
def sampleServerKey : String := "AQEBAQEBAQEBAQEBAQEBAQEBAQEBAQEBAQEBAQEBAQE="

def sampleKey : String := "AgICAgICAgICAgICAgICAgICAgICAgICAgICAgICAgI="

def sampleOtherKey : String := "AwMDAwMDAwMDAwMDAwMDAwMDAwMDAwMDAwMDAwMDAwM="

/-- An administrator, one user and one server. -/
def sampleTables : Db.Tables where
  users :=
    [ { id := 1, email := .address "admin@vpn.test", role := .admin, status := .active
        deletedAt := none, deviceLimit := 5, monthlyByteCap := none
        currentMonthBytes := 0, quotaResetsAt := none },
      { id := 2, email := .address "user@vpn.test", role := .user, status := .active
        deletedAt := none, deviceLimit := 5, monthlyByteCap := none
        currentMonthBytes := 0, quotaResetsAt := none } ]
  servers :=
    [ { id := 10, name := "main", publicKey := sampleServerKey, isActive := true
        privateKeyEncrypted := some (.encrypted "server-private")
        cidr := Bootstrap.defaultCidr, persistentKeepalive := 25, createdAt := 0 } ]
  devices := []
  checkpoints := []
  serverUsage := []
  samples := []

def sampleDb : Db where
  toTables := sampleTables
  valid := by decide

def sampleConfig : Bootstrap.Config where
  bootstrapEmail := "admin@vpn.test"
  confKey := none
  mintedKey := ⟨"minted-private", sampleOtherKey⟩
  newUserId := 3
  newServerId := 11
  now := 0
  interfaceSurvived := true

/-- The process starts and the user creates a device. -/
def sampleStart : List Op :=
  [.restart sampleConfig, .create 2 ⟨"laptop", none, none⟩ ⟨20, "private", sampleKey⟩]

/-- The user connects with that device again. -/
def sampleReconnect : Op :=
  .connect 2 ⟨some 20, none, none, none⟩ false ⟨21, "other", sampleOtherKey⟩

end Sample

section Restart

variable {s : Sys} {cfg : Bootstrap.Config}

theorem stopped_peer {k : String} (h : (s.stopped cfg).interface k ≠ none) :
    s.interface k ≠ none := by
  simp only [Sys.stopped] at h
  split at h
  · exact h
  · exact absurd rfl h

/-- Stopping the process adds no peer. -/
theorem idle_stopped (hP : s.fleet.IdleDevicesHaveNoPeer) :
    (s.stopped cfg).fleet.IdleDevicesHaveNoPeer := by
  intro d hd hidle
  by_contra hpeer
  exact stopped_peer hpeer (hP d hd hidle)

theorem peersBelong_stopped (hP : s.fleet.PeersBelongToActiveAccounts) :
    (s.stopped cfg).fleet.PeersBelongToActiveAccounts := by
  constructor
  · intro d hd hpeer
    exact hP.1 d hd (stopped_peer hpeer)
  · intro k hk
    exact hP.2 k (stopped_peer hk)

end Restart

section Paused

/-- No connect and no key rotation reaches a paused device of an active
account, and no account with a peer deletes itself. -/
def RespectsPause (s : Sys) : Op → Prop
  | .connect userId body .. =>
      ∀ d ∈ s.db.devices, d.userId = userId → body.deviceId = some d.id → Readable d →
        s.fleet.ActiveOwner (stationOf d) → d.status ≠ .paused
  | .rotateKeys userId deviceId _ =>
      ∀ d ∈ s.fleet.stations, d.userId = userId → d.id = deviceId →
        s.fleet.ActiveOwner d → d.status ≠ .paused
  | .deleteAccount userId _ =>
      ∀ d ∈ s.fleet.stations, d.userId = userId → s.interface d.publicKey = none
  | _ => True

theorem active_of_ne {status : DeviceStatus} (hpaused : status ≠ .paused)
    (hrevoked : status ≠ .revoked) : status = .active := by
  cases status with
  | active =>
      rfl
  | paused =>
      exact absurd rfl hpaused
  | revoked =>
      exact absurd rfl hrevoked

/-- One operation keeps idle devices off the interface. -/
theorem complete_idle {s : Sys} {op : Op} (hdone : op.Completes s)
    (hP : s.fleet.IdleDevicesHaveNoPeer) (hcond : RespectsPause s op) :
    (complete s op).fleet.IdleDevicesHaveNoPeer := by
  have hwf := s.fleet_wf
  have hwf' := (complete s op).fleet_wf
  rcases complete_effect hdone with hquiet | heffect
  · rw [hquiet]
    exact hP
  cases op with
  | create userId body draw =>
      obtain ⟨d, hnew⟩ := heffect
      exact hnew.idle hwf' hP
  | connect userId body wasOffline draw =>
      rcases heffect with ⟨d, hnew⟩ | ⟨d, hd, huser, hid, hlive, hread, howner, htouch, _⟩
      · exact hnew.idle hwf' hP
      · have hactive := active_of_ne (hcond d hd huser hid hread howner) hlive
        exact htouch.idle hwf hwf' hP (fun hidle => absurd hactive hidle)
  | rotateKeys userId deviceId draw =>
      obtain ⟨d, hd, huser, hid, hlive, howner, htouch, _⟩ := heffect
      have hactive := active_of_ne (hcond d hd huser hid howner) hlive
      exact htouch.idle hwf hwf' hP (fun hidle => absurd hactive hidle)
  | pause userId deviceId =>
      obtain ⟨d, _, hsettled⟩ := heffect
      exact hsettled.idle hwf hwf' hP
  | unpause userId deviceId =>
      obtain ⟨d, _, _, hsettled⟩ := heffect
      exact hsettled.idle hwf hwf' hP
  | delete userId deviceId =>
      obtain ⟨d, _, hsettled⟩ := heffect
      exact hsettled.idle hwf hwf' hP
  | pauseDevice actorId deviceId =>
      obtain ⟨d, _, hsettled⟩ := heffect
      exact hsettled.idle hwf hwf' hP
  | unpauseDevice actorId deviceId =>
      obtain ⟨_, d, _, _, _, hsettled⟩ := heffect
      exact hsettled.idle hwf hwf' hP
  | revokeDevice actorId deviceId =>
      obtain ⟨d, _, hsettled⟩ := heffect
      exact hsettled.idle hwf hwf' hP
  | setUserStatus actorId targetId status =>
      obtain ⟨_, _, a, _, hchanged⟩ := heffect
      exact hchanged.idle hwf hP
  | deleteUser actorId targetId =>
      obtain ⟨_, _, herased⟩ := heffect
      exact herased.idle hwf hP
  | deleteAccount userId now =>
      exact SoftDeleted.idle heffect hP hcond
  | rotateServerKeys actorId serverId privateKey publicKey =>
      obtain ⟨_, _, hempty⟩ := heffect
      rw [hempty]
      intro d _ _
      rfl
  | quotaSweep now =>
      exact Swept.preserves (fun _ _ hstep hidle => hstep.idle hidle) heffect hP
  | restart cfg =>
      exact Rebooted.idle heffect (idle_stopped hP)

/-- The operations that are meant to bring a paused device back. -/
def Op.resumes : Op → Bool
  | .unpause .. | .unpauseDevice .. | .quotaSweep _ => true
  | _ => false

/-- A device that is paused before the operation has a peer after it. -/
def BringsBack (s : Sys) (op : Op) : Prop :=
  ∃ d ∈ s.fleet.stations, d.status = .paused ∧
    ∃ d' ∈ (complete s op).fleet.stations, d'.id = d.id ∧
      (complete s op).interface d'.publicKey ≠ none

/-- No paused device becomes active. -/
def KeepsPaused (f f' : Fleet) : Prop :=
  ∀ d ∈ f.stations, d.status = .paused →
    ∀ d' ∈ f'.stations, d'.id = d.id → d'.status ≠ .active

section KeepsPaused

variable {f f' : Fleet}

/-- Stored devices that are not new keep a paused one paused. -/
theorem keepsPaused_of_subset (hwf : f.Wf) (h : ∀ d ∈ f'.stations, d ∈ f.stations) :
    KeepsPaused f f' := by
  intro d hd hpaused d' hd' hid hactive
  have heq : d' = d := row_unique hwf.stations_id (h d' hd') hd hid
  rw [heq, hpaused] at hactive
  cases hactive

theorem Touch.keepsPaused {e e' : Station} (h : Touch f f' e e') (hwf : f.Wf)
    (hwf' : f'.Wf) (hstatus : e'.status = .active → e.status = .active) :
    KeepsPaused f f' := by
  intro d hd hpaused d' hd' hid hactive
  by_cases hnew : d' = e'
  · have heq : d = e := by
      refine row_unique hwf.stations_id hd h.mem ?_
      rw [← hid, hnew, h.id_eq]
    rw [hnew] at hactive
    rw [heq, hstatus hactive] at hpaused
    cases hpaused
  · obtain ⟨hmem, _, _⟩ := h.other hwf hwf' hd' hnew
    have heq : d' = d := row_unique hwf.stations_id hmem hd hid
    rw [heq, hpaused] at hactive
    cases hactive

theorem Provisioned.keepsPaused {e : Station} (h : Provisioned f f' e) (hwf' : f'.Wf) :
    KeepsPaused f f' := by
  intro d hd hpaused d' hd' hid hactive
  have hmem : d ∈ f'.stations := by
    rw [h.stations_eq]
    exact List.mem_append_left _ hd
  have heq : d' = d := row_unique hwf'.stations_id hd' hmem hid
  rw [heq, hpaused] at hactive
  cases hactive

theorem SoftDeleted.keepsPaused {userId : Uuid} (h : SoftDeleted f f' userId) (hwf : f.Wf) :
    KeepsPaused f f' := by
  intro d hd hpaused d' hd' hid hactive
  rcases h.mem_cases hd' with ⟨hmem, _⟩ | ⟨e, _, _, rfl⟩
  · have heq : d' = d := row_unique hwf.stations_id hmem hd hid
    rw [heq, hpaused] at hactive
    cases hactive
  · cases hactive

end KeepsPaused

/-- Every other operation leaves a paused device paused. -/
theorem complete_keepsPaused {s : Sys} {op : Op} (hdone : op.Completes s)
    (hop : op.resumes = false) : KeepsPaused s.fleet (complete s op).fleet := by
  have hwf := s.fleet_wf
  have hwf' := (complete s op).fleet_wf
  have hsame : ∀ {f : Fleet}, f.stations = s.fleet.stations → KeepsPaused s.fleet f := by
    intro f hstations
    refine keepsPaused_of_subset hwf ?_
    intro d hd
    rwa [hstations] at hd
  rcases complete_effect hdone with hquiet | heffect
  · exact hsame (by rw [hquiet])
  cases op with
  | create userId body draw =>
      obtain ⟨d, hnew⟩ := heffect
      exact hnew.keepsPaused hwf'
  | connect userId body wasOffline draw =>
      rcases heffect with ⟨d, hnew⟩ | ⟨d, _, _, _, _, _, _, htouch, _⟩
      · exact hnew.keepsPaused hwf'
      · exact htouch.keepsPaused hwf hwf' (fun h => h)
  | rotateKeys userId deviceId draw =>
      obtain ⟨d, _, _, _, _, _, htouch, _⟩ := heffect
      exact htouch.keepsPaused hwf hwf' (fun h => h)
  | pause userId deviceId =>
      obtain ⟨d, _, hsettled⟩ := heffect
      exact hsettled.touch.keepsPaused hwf hwf' (fun h => by cases h)
  | delete userId deviceId =>
      obtain ⟨d, _, hsettled⟩ := heffect
      exact hsettled.touch.keepsPaused hwf hwf' (fun h => by cases h)
  | pauseDevice actorId deviceId =>
      obtain ⟨d, _, hsettled⟩ := heffect
      exact hsettled.touch.keepsPaused hwf hwf' (fun h => by cases h)
  | revokeDevice actorId deviceId =>
      obtain ⟨d, _, hsettled⟩ := heffect
      exact hsettled.touch.keepsPaused hwf hwf' (fun h => by cases h)
  | setUserStatus actorId targetId status =>
      obtain ⟨_, _, a, _, hchanged⟩ := heffect
      exact hsame hchanged.stations_eq
  | deleteUser actorId targetId =>
      obtain ⟨_, _, herased⟩ := heffect
      exact keepsPaused_of_subset hwf (fun d hd => (herased.mem_iff.mp hd).1)
  | deleteAccount userId now =>
      exact SoftDeleted.keepsPaused heffect hwf
  | rotateServerKeys actorId serverId privateKey publicKey =>
      obtain ⟨_, _, hempty⟩ := heffect
      exact hsame (by rw [hempty])
  | restart cfg =>
      have hrebooted : Rebooted cfg (s.stopped cfg) _ := heffect
      exact hsame hrebooted.stations_eq
  | unpause | unpauseDevice | quotaSweep =>
      cases hop

/--
Along every run of completed operations in which no connect and no key rotation
reaches a paused device, a paused or revoked device has no peer, and only a
resuming operation brings a paused device back.
-/
theorem idle_devices_have_no_peer (db : Db) (ops : List Op)
    (hops : Along complete (fun s op => op.Completes s ∧ RespectsPause s op)
      (Sys.off db) ops) :
    Always complete (fun s => s.fleet.IdleDevicesHaveNoPeer) (Sys.off db) ops ∧
      Along complete (fun s op => BringsBack s op → op.resumes = true)
        (Sys.off db) ops := by
  have hinit : (Sys.off db).fleet.IdleDevicesHaveNoPeer := by
    intro d _ _
    rfl
  have hstep : ∀ s op, s.fleet.IdleDevicesHaveNoPeer →
      op.Completes s ∧ RespectsPause s op →
      (complete s op).fleet.IdleDevicesHaveNoPeer := by
    rintro s op hP ⟨hdone, hcond⟩
    exact complete_idle hdone hP hcond
  constructor
  · exact always_of_along _ hstep (fun _ hP => hP) hinit hops
  · refine along_of_inv _ hstep ?_ hinit hops
    rintro s op hP ⟨hdone, hcond⟩ ⟨d, hd, hpaused, d', hd', hid, hpeer⟩
    by_contra hop
    have hidle : d'.status ≠ .active :=
      complete_keepsPaused hdone (by simpa using hop) d hd hpaused d' hd' hid
    exact hpeer (complete_idle hdone hP hcond d' hd' hidle)

/-- The same at a run in which the device reconnects before it is paused. -/
theorem idle_devices_have_no_peer_sample :
    Always complete (fun s => s.fleet.IdleDevicesHaveNoPeer) (Sys.off sampleDb)
      (sampleStart ++ [sampleReconnect, Op.pause 2 20]) := by
  refine (idle_devices_have_no_peer sampleDb _ ?_).1
  refine ⟨⟨by decide, trivial⟩, ⟨by decide, trivial⟩,
    ⟨by decide, ?_⟩, ⟨by decide, trivial⟩, trivial⟩
  intro d hd _ _ _ _
  revert d
  decide

/-- The owner of a paused device reconnects it: it is still paused and has its
peer again. -/
theorem connect_brings_back_paused_device :
    Along complete (fun s op => op.Completes s) (Sys.off sampleDb)
        (sampleStart ++ [Op.pause 2 20, sampleReconnect]) ∧
      ¬ Always complete (fun s => s.fleet.IdleDevicesHaveNoPeer) (Sys.off sampleDb)
        (sampleStart ++ [Op.pause 2 20, sampleReconnect]) := by
  constructor
  · decide
  · intro h
    exact absurd h.last (by decide)

end Paused

section Banned

/-- No device of the account has a peer. -/
def HasNoPeer (s : Sys) (userId : Uuid) : Prop :=
  ∀ d ∈ s.fleet.stations, d.userId = userId → s.interface d.publicKey = none

/-- Only active devices of the account have a peer. -/
def HasOnlyActivePeers (s : Sys) (userId : Uuid) : Prop :=
  ∀ d ∈ s.fleet.stations, d.userId = userId →
    s.interface d.publicKey ≠ none → d.status = .active

/-- The operations that keep inactive accounts off the interface: an account
deletes itself or is marked deleted without a peer, is suspended or erased
without a peer of an idle device, a device is resumed for an active account,
and the process starts with active devices of active accounts only. -/
def RespectsAccounts (s : Sys) : Op → Prop
  | .unpauseDevice actorId deviceId =>
      s.IsAdmin actorId → ∀ d ∈ s.fleet.stations, d.id = deviceId → d.status ≠ .revoked →
        s.fleet.ActiveOwner d
  | .setUserStatus actorId targetId status =>
      s.IsAdmin actorId → targetId ≠ actorId →
        (status = .suspended → HasOnlyActivePeers s targetId) ∧
          (status = .deleted → HasNoPeer s targetId)
  | .deleteUser actorId targetId =>
      s.IsAdmin actorId → targetId ≠ actorId → HasOnlyActivePeers s targetId
  | .deleteAccount userId _ => HasNoPeer s userId
  | .restart cfg =>
      ∀ d ∈ s.fleet.stations, d.status = .active →
        ∃ a ∈ bootAccounts cfg s.db, a.id = d.userId ∧ a.active = true
  | _ => True

/-- One operation keeps inactive accounts off the interface. -/
theorem complete_peersBelong {s : Sys} {op : Op} (hdone : op.Completes s)
    (hP : s.fleet.PeersBelongToActiveAccounts) (hcond : RespectsAccounts s op) :
    (complete s op).fleet.PeersBelongToActiveAccounts := by
  have hwf := s.fleet_wf
  have hwf' := (complete s op).fleet_wf
  rcases complete_effect hdone with hquiet | heffect
  · rw [hquiet]
    exact hP
  cases op with
  | create userId body draw =>
      obtain ⟨d, hnew⟩ := heffect
      exact hnew.peersBelong hwf' hP
  | connect userId body wasOffline draw =>
      rcases heffect with ⟨d, hnew⟩ | ⟨d, _, _, _, _, _, howner, htouch, _⟩
      · exact hnew.peersBelong hwf' hP
      · exact htouch.peersBelong hwf hwf' hP (fun _ => howner)
  | rotateKeys userId deviceId draw =>
      obtain ⟨d, _, _, _, _, howner, htouch, _⟩ := heffect
      exact htouch.peersBelong hwf hwf' hP (fun _ => howner)
  | pause userId deviceId =>
      obtain ⟨d, _, hsettled⟩ := heffect
      exact hsettled.peersBelong hwf hwf' hP (fun h => by cases h)
  | unpause userId deviceId =>
      obtain ⟨d, _, howner, hsettled⟩ := heffect
      exact hsettled.peersBelong hwf hwf' hP (fun _ => howner)
  | delete userId deviceId =>
      obtain ⟨d, _, hsettled⟩ := heffect
      exact hsettled.peersBelong hwf hwf' hP (fun h => by cases h)
  | pauseDevice actorId deviceId =>
      obtain ⟨d, _, hsettled⟩ := heffect
      exact hsettled.peersBelong hwf hwf' hP (fun h => by cases h)
  | unpauseDevice actorId deviceId =>
      obtain ⟨hadmin, d, hd, hid, hlive, hsettled⟩ := heffect
      exact hsettled.peersBelong hwf hwf' hP (fun _ => hcond hadmin d hd hid hlive)
  | revokeDevice actorId deviceId =>
      obtain ⟨d, _, hsettled⟩ := heffect
      exact hsettled.peersBelong hwf hwf' hP (fun h => by cases h)
  | setUserStatus actorId targetId status =>
      obtain ⟨hadmin, hother, a, rfl, hchanged⟩ := heffect
      obtain ⟨hsuspend, hdelete⟩ := hcond hadmin hother
      exact hchanged.peersBelong hwf hP hsuspend hdelete
  | deleteUser actorId targetId =>
      obtain ⟨hadmin, hother, herased⟩ := heffect
      exact herased.peersBelong hwf hP (hcond hadmin hother)
  | deleteAccount userId now =>
      exact SoftDeleted.peersBelong heffect hP hcond
  | rotateServerKeys actorId serverId privateKey publicKey =>
      obtain ⟨_, _, hempty⟩ := heffect
      rw [hempty]
      exact ⟨fun d _ hpeer => absurd rfl hpeer, fun k hk => absurd rfl hk⟩
  | quotaSweep now =>
      exact Swept.preserves (fun _ _ hstep hbelong => hstep.peersBelong hbelong) heffect hP
  | restart cfg =>
      exact Rebooted.peersBelong heffect (peersBelong_stopped hP) hcond

/--
Along every run of completed operations that respect the accounts, every peer is
the key of a stored device whose owner is active.
-/
theorem peers_belong_to_active_accounts (db : Db) (ops : List Op)
    (hops : Along complete (fun s op => op.Completes s ∧ RespectsAccounts s op)
      (Sys.off db) ops) :
    Always complete (fun s => s.fleet.PeersBelongToActiveAccounts) (Sys.off db) ops := by
  refine always_of_along (fun s => s.fleet.PeersBelongToActiveAccounts) ?_ ?_ ?_ hops
  · rintro s op hP ⟨hdone, hcond⟩
    exact complete_peersBelong hdone hP hcond
  · intro s hP
    exact hP
  · exact ⟨fun d _ hpeer => absurd rfl hpeer, fun k hk => absurd rfl hk⟩

/-- The same at a run that suspends the owner of a connected device. -/
theorem peers_belong_to_active_accounts_sample :
    Always complete (fun s => s.fleet.PeersBelongToActiveAccounts) (Sys.off sampleDb)
      (sampleStart ++ [Op.setUserStatus 1 2 .suspended]) := by
  refine peers_belong_to_active_accounts sampleDb _ ?_
  refine ⟨⟨by decide, ?_⟩, ⟨by decide, trivial⟩, ⟨by decide, ?_⟩,
    trivial⟩
  · intro d hd
    cases hd
  · intro _ _
    refine ⟨?_, fun h => by cases h⟩
    intro _ d hd _ _
    revert d
    decide

/-- A user with a connected device deletes the account: the peer stays. -/
theorem deleted_account_keeps_peer :
    Along complete (fun s op => op.Completes s) (Sys.off sampleDb)
        (sampleStart ++ [Op.deleteAccount 2 0]) ∧
      ¬ Always complete (fun s => s.fleet.PeersBelongToActiveAccounts) (Sys.off sampleDb)
        (sampleStart ++ [Op.deleteAccount 2 0]) := by
  constructor
  · decide
  · intro h
    exact absurd h.last.1 (by decide)

end Banned

section Available

/-- The operations that keep active devices served: a deleted account is
activated with its active devices served, and the server key is rotated while
no active account has an active device. -/
def KeepsService (s : Sys) : Op → Prop
  | .setUserStatus actorId targetId status =>
      s.IsAdmin actorId → targetId ≠ actorId → status = .active →
        ∀ a ∈ s.fleet.accounts, a.id = targetId → a.status = .deleted →
          ∀ d ∈ s.fleet.stations, d.userId = targetId → d.status = .active →
            s.fleet.Served d
  | .rotateServerKeys actorId serverId .. =>
      s.IsAdmin actorId → serverId ∈ s.db.servers.map Db.Server.id →
        ∀ d ∈ s.fleet.stations, d.status = .active → ¬ s.fleet.ActiveOwner d
  | _ => True

/-- One operation keeps active devices of active accounts served. -/
theorem complete_served {s : Sys} {op : Op} (hdone : op.Completes s)
    (hP : s.fleet.ActiveDevicesAreServed) (hcond : KeepsService s op) :
    (complete s op).fleet.ActiveDevicesAreServed := by
  have hwf := s.fleet_wf
  have hwf' := (complete s op).fleet_wf
  rcases complete_effect hdone with hquiet | heffect
  · rw [hquiet]
    exact hP
  cases op with
  | create userId body draw =>
      obtain ⟨d, hnew⟩ := heffect
      exact hnew.servedAll hwf' hP
  | connect userId body wasOffline draw =>
      rcases heffect with ⟨d, hnew⟩ | ⟨d, _, _, _, _, _, _, htouch, hserved⟩
      · exact hnew.servedAll hwf' hP
      · exact htouch.served hwf hwf' hP (fun _ _ => hserved)
  | rotateKeys userId deviceId draw =>
      obtain ⟨d, _, _, _, _, _, htouch, hserved⟩ := heffect
      exact htouch.served hwf hwf' hP (fun _ _ => hserved)
  | pause userId deviceId =>
      obtain ⟨d, _, hsettled⟩ := heffect
      exact hsettled.servedAll hwf hwf' hP
  | unpause userId deviceId =>
      obtain ⟨d, _, _, hsettled⟩ := heffect
      exact hsettled.servedAll hwf hwf' hP
  | delete userId deviceId =>
      obtain ⟨d, _, hsettled⟩ := heffect
      exact hsettled.servedAll hwf hwf' hP
  | pauseDevice actorId deviceId =>
      obtain ⟨d, _, hsettled⟩ := heffect
      exact hsettled.servedAll hwf hwf' hP
  | unpauseDevice actorId deviceId =>
      obtain ⟨_, d, _, _, _, hsettled⟩ := heffect
      exact hsettled.servedAll hwf hwf' hP
  | revokeDevice actorId deviceId =>
      obtain ⟨d, _, hsettled⟩ := heffect
      exact hsettled.servedAll hwf hwf' hP
  | setUserStatus actorId targetId status =>
      obtain ⟨hadmin, hother, a, rfl, hchanged⟩ := heffect
      refine hchanged.servedAll hwf hP ?_
      intro hactive hdeleted
      exact hcond hadmin hother hactive a hchanged.mem rfl hdeleted
  | deleteUser actorId targetId =>
      obtain ⟨_, _, herased⟩ := heffect
      exact herased.servedAll hwf hP
  | deleteAccount userId now =>
      exact SoftDeleted.servedAll heffect hP
  | rotateServerKeys actorId serverId privateKey publicKey =>
      obtain ⟨hadmin, hserver, hempty⟩ := heffect
      rw [hempty]
      intro d hd hactive howner
      exact absurd howner (hcond hadmin hserver d hd hactive)
  | quotaSweep now =>
      exact Swept.preserves (fun _ _ hstep hserved => hstep.servedAll hserved) heffect hP
  | restart cfg =>
      exact Rebooted.servedAll heffect

/--
Along every run of completed operations that keep the service, from the first
completed start of the process on, every active device of an active account is
a peer under its key and address.
-/
theorem active_devices_are_served (db : Db) (cfg : Bootstrap.Config) (ops : List Op)
    (hboot : (Op.restart cfg).Completes (Sys.off db))
    (hops : Along complete (fun s op => op.Completes s ∧ KeepsService s op)
      (complete (Sys.off db) (.restart cfg)) ops) :
    Always complete (fun s => s.fleet.ActiveDevicesAreServed)
      (complete (Sys.off db) (.restart cfg)) ops := by
  refine always_of_along (fun s => s.fleet.ActiveDevicesAreServed) ?_ ?_ ?_ hops
  · rintro s op hP ⟨hdone, hcond⟩
    exact complete_served hdone hP hcond
  · intro s hP
    exact hP
  · exact Rebooted.servedAll (boot_wp cfg ((Sys.off db).stopped cfg) (hboot rfl))

/-- The same at a run that suspends an account and activates it again. -/
theorem active_devices_are_served_sample :
    Always complete (fun s => s.fleet.ActiveDevicesAreServed)
      (complete (Sys.off sampleDb) (.restart sampleConfig))
      [.create 2 ⟨"laptop", none, none⟩ ⟨20, "private", sampleKey⟩,
        .setUserStatus 1 2 .suspended, .setUserStatus 1 2 .active] := by
  refine active_devices_are_served sampleDb sampleConfig _ (by decide) ?_
  refine ⟨⟨by decide, trivial⟩, ⟨by decide, ?_⟩, ⟨by decide, ?_⟩,
    trivial⟩
  · intro _ _ h
    cases h
  · intro _ _ _ a ha _ hdeleted
    revert a
    decide

/-- The server key is rotated while a device is connected: it stays active and
loses its peer. -/
theorem rotated_server_key_drops_active_device :
    Along complete (fun s op => op.Completes s) (Sys.off sampleDb)
        (sampleStart ++ [Op.rotateServerKeys 1 10 "new-private" sampleOtherKey]) ∧
      ¬ Always complete (fun s => s.fleet.ActiveDevicesAreServed)
        (complete (Sys.off sampleDb) (.restart sampleConfig))
        [.create 2 ⟨"laptop", none, none⟩ ⟨20, "private", sampleKey⟩,
          Op.rotateServerKeys 1 10 "new-private" sampleOtherKey] := by
  constructor
  · decide
  · intro h
    exact absurd h.last (by decide)

end Available

section Routes

variable {i : Interface} {routes : Wg.Routes} {key : String}

/-- The ranges of the interface are the addresses of the peers. -/
def Interface.Agrees (i : Interface) (routes : Wg.Routes) : Prop :=
  ∀ r, r ∈ routes ↔ ∃ p, i r.2 = some p ∧ r.1 = Wg.hostMask p.allowedIp

/-- No other peer has the address. -/
def Interface.Free (i : Interface) (key : String) (ip : Wg.IpAddr) : Prop :=
  ∀ k p, i k = some p → p.allowedIp = ip → k = key

/-- A peer that is added under a free address takes it from no other peer. -/
theorem Interface.Agrees.addPeer (h : i.Agrees routes) {p : Peer} (hfree : i.Free key p.allowedIp) :
    (i.addPeer key p).Agrees (routes.setPeer key (Wg.hostMask p.allowedIp)) := by
  intro r
  rw [Wg.Routes.setPeer, Wg.canonical_hostMask, List.mem_cons, List.mem_filter, h]
  simp only [Bool.and_eq_true, bne_iff_ne]
  constructor
  · rintro (rfl | ⟨⟨q, hq, hrange⟩, _, hkey⟩)
    · exact ⟨p, Interface.addPeer_self .., rfl⟩
    · exact ⟨q, (Interface.addPeer_of_ne hkey).trans hq, hrange⟩
  · rintro ⟨q, hq, hrange⟩
    by_cases hkey : r.2 = key
    · rw [hkey, Interface.addPeer_self, Option.some.injEq] at hq
      exact .inl (Prod.ext (hq ▸ hrange) hkey)
    · rw [Interface.addPeer_of_ne hkey] at hq
      refine .inr ⟨⟨q, hq, hrange⟩, ?_, hkey⟩
      intro heq
      exact hkey (hfree r.2 q hq (Wg.hostMask_injective (hrange.symm.trans heq)))

/-- On one server, the address of a device is free if all peers are live devices with theirs. -/
theorem free_of_live {db : Db}
    (hserver : ∀ d ∈ db.devices, ∀ d' ∈ db.devices, d.serverId = d'.serverId)
    (hpeers : ∀ k p, i k = some p → ∃ d ∈ db.devices, d.live = true ∧ d.publicKey = k ∧
      d.allocatedIp = p.allowedIp) {d : Device} (hd : d ∈ db.devices) (hlive : d.live = true) :
    i.Free d.publicKey d.allocatedIp := by
  intro k p hp hip
  obtain ⟨e, he, helive, rfl, heip⟩ := hpeers k p hp
  have hsame : e = d := List.inj_on_of_nodup_map db.valid.devices_address
    (List.mem_filter.mpr ⟨he, helive⟩) (List.mem_filter.mpr ⟨hd, hlive⟩)
    (Prod.ext (hserver e he d hd) (heip.trans hip))
  rw [hsame]

/-- A device as a peer. -/
def peerOf (keepalive : Nat) (d : Device) : Peer := ⟨d.allocatedIp, none, keepalive⟩

/--
On one server, the peers of some live devices that are added to an interface without
peers have the addresses that WireGuard gives them.
-/
theorem added_peers_agree (db : Db)
    (hserver : ∀ d ∈ db.devices, ∀ d' ∈ db.devices, d.serverId = d'.serverId) (keepalive : Nat)
    (ds : List Device) (hds : ∀ d ∈ ds, d ∈ db.devices ∧ d.live = true) :
    (ds.foldr (fun d i => i.addPeer d.publicKey (peerOf keepalive d)) Interface.empty).Agrees
      (Wg.LiveBackend.kernel.addPeers Wg.hostMask
        (ds.map fun d => ⟨d.publicKey, d.allocatedIp⟩)) := by
  have hrun : ∀ ds : List Device, (∀ d ∈ ds, d ∈ db.devices ∧ d.live = true) →
      (ds.foldr (fun d i => i.addPeer d.publicKey (peerOf keepalive d)) Interface.empty).Agrees
          (Wg.LiveBackend.kernel.addPeers Wg.hostMask
            (ds.map fun d => ⟨d.publicKey, d.allocatedIp⟩)) ∧
        ∀ k p, (ds.foldr (fun d i => i.addPeer d.publicKey (peerOf keepalive d))
          Interface.empty) k = some p →
            ∃ d ∈ db.devices, d.live = true ∧ d.publicKey = k ∧ d.allocatedIp = p.allowedIp := by
    intro ds
    induction ds with
    | nil =>
        intro _
        refine ⟨?_, fun k p hp => by cases hp⟩
        intro r
        constructor
        · intro hr
          cases hr
        · rintro ⟨p, hp, _⟩
          cases hp
    | cons d ds ih =>
        intro hall
        obtain ⟨⟨hd, hlive⟩, hds⟩ := List.forall_mem_cons.mp hall
        obtain ⟨hagrees, hpeers⟩ := ih hds
        refine ⟨hagrees.addPeer (free_of_live hserver hpeers hd hlive), ?_⟩
        intro k p hp
        rw [List.foldr_cons] at hp
        by_cases hk : k = d.publicKey
        · rw [hk, Interface.addPeer_self, Option.some.injEq] at hp
          exact ⟨d, hd, hlive, hk.symm, hp ▸ rfl⟩
        · rw [Interface.addPeer_of_ne hk] at hp
          exact hpeers k p hp
  exact (hrun ds hds).1

end Routes

end Api
end ZeroVpn
