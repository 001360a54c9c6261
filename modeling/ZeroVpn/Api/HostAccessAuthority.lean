import ZeroVpn.Api.HostAccess
import ZeroVpn.Api.QuotaSweep

/-!
# Who may reach the host services

The per-device rules of `ZEROVPN-WG` should name current addresses of active
devices that hold a grant.  They do right after the rules are built.  Pausing,
revoking or erasing a device does not build them again, and a released address
is the first one that the allocator hands out next, so the rule then lets in
whoever comes after.

`host_access_authorized` is about runs in which no operation takes a device out
of use on which an installed rule rests.
-/

namespace ZeroVpn

open Library
open Library.Attempt (wp wp_mono)

namespace Api

open Db (Uuid Device User UserStatus DeviceStatus)
open Db.Quota (due overCap)
open Wg (IpAddr)

/-- What a per-device rule grants: an address, a host and a port. -/
structure DeviceAccess where
  source : IpAddr
  backend : BitVec 32
  protocol : Option IpProtocol
  port : Int
  deriving DecidableEq, Repr

/-- The per-device `ACCEPT` rules are those with two single addresses; the port
is that of the host. -/
def deviceAccess (r : FwRule) : Option DeviceAccess :=
  match r.target, r.spec.source, r.spec.destination, r.spec.dport, r.spec.sport with
  | .verdict .accept, some (.host ip), some (.host (.v4 backend)), some port, none =>
      some ⟨ip, backend, r.spec.protocol, port⟩
  | .verdict .accept, some (.host (.v4 backend)), some (.host ip), none, some port =>
      some ⟨ip, backend, r.spec.protocol, port⟩
  | _, _, _, _, _ => none

/-- The service is the one that the access is for. -/
def VpnService.offers (s : VpnService) (a : DeviceAccess) : Bool :=
  some s.protocol.ip == a.protocol && s.backendIp == a.backend && s.backendPort == a.port

namespace Gateway

/-- The rules of `ZEROVPN-WG`. -/
def rules (g : Gateway) : List FwRule := (g.tables.filter Forwarding.chain).getD []

/-- The access of the installed per-device rules. -/
def accesses (g : Gateway) : List DeviceAccess := g.rules.filterMap deviceAccess

/-- The device is active, has the address of the access, and a service for it
names the device. -/
def Entitled (g : Gateway) (a : DeviceAccess) (d : Device) : Prop :=
  d.status = .active ∧ d.allocatedIp = a.source ∧
    ∃ s ∈ g.access.services, s.offers a = true ∧ ⟨s.id, d.id⟩ ∈ g.access.grants

instance (g : Gateway) (a : DeviceAccess) (d : Device) : Decidable (g.Entitled a d) :=
  inferInstanceAs (Decidable (_ ∧ _ ∧ ∃ s ∈ g.access.services, _))

/-- Every per-device rule is that of an entitled device, and no other device of
its server has the address. -/
def Authorized (g : Gateway) : Prop :=
  ∀ a ∈ g.accesses, ∃ d ∈ g.sys.db.devices, g.Entitled a d ∧
    ∀ e ∈ g.sys.db.devices, e.live = true → e.serverId = d.serverId →
      e.allocatedIp = a.source → e = d

instance (g : Gateway) : Decidable g.Authorized :=
  inferInstanceAs (Decidable (∀ a ∈ g.accesses, ∃ d ∈ g.sys.db.devices, _ ∧
    ∀ e ∈ g.sys.db.devices, _ → _ → _ → _))

/-- The address of a live device is its own. -/
theorem authorized_of_entitled {g : Gateway}
    (h : ∀ a ∈ g.accesses, ∃ d ∈ g.sys.db.devices, g.Entitled a d) : g.Authorized := by
  intro a ha
  obtain ⟨d, hd, hentitled⟩ := h a ha
  refine ⟨d, hd, hentitled, ?_⟩
  intro e he hlive hserver hip
  have hdlive : d.live = true := by
    simp [Device.live, hentitled.1]
  exact g.sys.db.address_unique he hd hlive hdlive hserver (hip.trans hentitled.2.1.symm)

end Gateway

section Rebuild

open HostAccess Forwarding

variable {access : AccessDb} {db : Db} {env : Env}

/-- The rows of the query. -/
theorem mem_hostRuleRows {row : HostRule} (h : row ∈ hostRuleRows access db) :
    ∃ s ∈ access.services, ∃ j ∈ joined access db s, j.service = s ∧ row = j.row := by
  simp only [hostRuleRows, List.mem_map, List.mem_insertionSort, List.mem_filter,
    List.mem_flatMap] at h
  obtain ⟨j, ⟨⟨s, hs, hj⟩, _⟩, rfl⟩ := h
  refine ⟨s, hs, j, hj, ?_, rfl⟩
  unfold joined at hj
  split at hj
  · rw [List.mem_singleton.mp hj]
  · obtain ⟨g, _, rfl⟩ := List.mem_map.mp hj
    rfl

/-- A device of the join is active and granted the service. -/
theorem joined_device {s : VpnService} {j : Joined} {d : Device} (hj : j ∈ joined access db s)
    (hd : j.device = some d) :
    d ∈ db.devices ∧ d.status = .active ∧ ⟨s.id, d.id⟩ ∈ access.grants := by
  unfold joined at hj
  split at hj
  · rw [List.mem_singleton.mp hj] at hd
    cases hd
  · obtain ⟨g, hg, rfl⟩ := List.mem_map.mp hj
    have hfound := List.find?_some hd
    simp only [Bool.and_eq_true, beq_iff_eq] at hfound
    obtain ⟨hgrant, hservice⟩ := List.mem_filter.mp hg
    refine ⟨List.mem_of_find?_eq_some hd, hfound.2, ?_⟩
    rw [hfound.1, ← eq_of_beq hservice]
    exact hgrant

/-- A per-device rule comes from a row with a source of its own. -/
theorem deviceAccess_of_forwardRules {rows : List HostRule} {r : FwRule} {a : DeviceAccess}
    (hr : r ∈ forwardRules env rows) (ha : deviceAccess r = some a) :
    ∃ row ∈ rows, row.allowAllPeers = false ∧ row.sourceIp = some a.source ∧
      a.backend = row.backendIp ∧ a.protocol = some row.protocol.ip ∧ a.port = row.backendPort := by
  have haccess : ∀ source target protocol port,
      r ∈ accessRules env source target protocol port →
      source = .host a.source ∧ a.backend = target ∧ a.protocol = some protocol.ip ∧
        a.port = port := by
    intro source target protocol port hmem
    simp only [accessRules, List.mem_cons, List.not_mem_nil, or_false] at hmem
    cases source with
    | network cidr =>
        rcases hmem with rfl | rfl
        · cases ha
        · cases ha
    | host ip =>
        rcases hmem with rfl | rfl
        · cases ha
          exact ⟨rfl, rfl, rfl, rfl⟩
        · simp only [deviceAccess, returningRule, acceptRule, Option.some.injEq] at ha
          rw [← ha]
          exact ⟨rfl, rfl, rfl, rfl⟩
  simp only [forwardRules, List.cons_append, List.mem_cons, List.mem_append, List.mem_flatMap,
    List.not_mem_nil, or_false] at hr
  rcases hr with rfl | (⟨row, hrow, hr⟩ | hr) | rfl | rfl
  · cases ha
  · unfold hostRules HostRule.source at hr
    cases hall : row.allowAllPeers with
    | true =>
        simp only [hall, ite_true] at hr
        cases (haccess _ _ _ _ hr).1
    | false =>
        simp only [hall, Bool.false_eq_true, ite_false] at hr
        cases hsource : row.sourceIp with
        | none =>
            simp [hsource] at hr
        | some ip =>
            simp only [hsource, Option.map_some] at hr
            obtain ⟨heq, hrest⟩ := haccess _ _ _ _ hr
            injection heq with heq
            exact ⟨row, hrow, hall, by rw [hsource, heq], hrest⟩
  · unfold httpsRules at hr
    split at hr
    · cases (haccess _ _ _ _ hr).1
    · cases hr
    · cases hr
  · cases ha
  · cases ha

/-- The rules are those of their rows. -/
theorem rules_rebuild (g : Gateway) :
    (g.rebuild env).rules = forwardRules env (hostRuleRows g.access g.sys.db) := by
  unfold Gateway.rules Gateway.rebuild
  rw [ensurePeerOnlyForwarding_chain, Option.getD_some]

/-- Right after the rules are built, every per-device rule is authorized. -/
theorem authorized_rebuild (g : Gateway) : (g.rebuild env).Authorized := by
  refine Gateway.authorized_of_entitled fun a ha => ?_
  obtain ⟨r, hr, hra⟩ := List.mem_filterMap.mp ha
  rw [rules_rebuild] at hr
  obtain ⟨row, hrow, hall, hsource, hbackend, hprotocol, hport⟩ :=
    deviceAccess_of_forwardRules hr hra
  obtain ⟨s, hs, j, hj, rfl, rfl⟩ := mem_hostRuleRows hrow
  have hj_all : j.service.allowAllPeers = false := hall
  simp only [Joined.row, hj_all, Bool.false_eq_true, ite_false] at hsource
  obtain ⟨d, hd, hip⟩ := Option.map_eq_some_iff.mp hsource
  obtain ⟨hmem, hactive, hgrant⟩ := joined_device hj hd
  refine ⟨d, hmem, hactive, hip, j.service, hs, ?_, hgrant⟩
  simp [VpnService.offers, hbackend, hprotocol, hport, Joined.row]

end Rebuild

section Withdrawals

/-- The session belongs to an active user. -/
def Sys.IsActive (s : Sys) (id : Uuid) : Prop :=
  ∃ u ∈ s.db.users, u.id = id ∧ u.status = .active ∧ u.deletedAt = none

/-- A counter as the sweep compares it: zero if its window is over. -/
def usedAt (now : Int) (resetsAt : Option Int) (used : Int) : Int :=
  if due now resetsAt then 0 else used

/-- The sweep finds the device over its own cap or over that of its owner. -/
def OverQuota (now : Int) (s : Sys) (d : Device) : Prop :=
  ∃ u ∈ s.db.users, MayUse u d ∧
    (overCap d.monthlyByteCap (usedAt now d.quotaResetsAt d.currentMonthBytes) = true ∨
      overCap u.monthlyByteCap (usedAt now u.quotaResetsAt u.currentMonthBytes) = true)

/-- The operation pauses, revokes or erases the active device. -/
def Op.Withdraws (s : Sys) (d : Device) : Op → Prop
  | pause userId deviceId | delete userId deviceId =>
      s.IsActive userId ∧ d.userId = userId ∧ d.id = deviceId
  | pauseDevice actorId deviceId | revokeDevice actorId deviceId =>
      s.IsAdmin actorId ∧ d.id = deviceId
  | deleteUser actorId targetId => s.IsAdmin actorId ∧ targetId ≠ actorId ∧ d.userId = targetId
  | deleteAccount userId _ => s.IsActive userId ∧ d.userId = userId
  | quotaSweep now => OverQuota now s d
  | _ => False

/-- The device is still stored, active and at its address. -/
def Fleet.StillActive (f : Fleet) (d : Station) : Prop :=
  ∃ e ∈ f.stations, e.id = d.id ∧ e.status = .active ∧ e.address = d.address

theorem stillActive_of_mem {f : Fleet} {d : Station} (hd : d ∈ f.stations)
    (hactive : d.status = .active) : f.StillActive d := ⟨d, hd, rfl, hactive, rfl⟩

variable {f f' : Fleet} {d : Station}

/-- A touched device stays active if the touch leaves it so. -/
theorem Touch.stillActive {e e' : Station} (h : Touch f f' e e') (hwf : f.Wf)
    (hd : d ∈ f.stations) (hactive : d.status = .active)
    (hself : d = e → e'.status = .active) : f'.StillActive d := by
  by_cases hde : d = e
  · subst hde
    exact ⟨e', h.mem', h.id_eq, hself rfl, h.address_eq⟩
  · exact stillActive_of_mem (h.mem_of_ne hwf hd hde) hactive

theorem Settled.stillActive {e : Station} {status : DeviceStatus} (h : Settled f f' e status)
    (hwf : f.Wf) (hd : d ∈ f.stations) (hactive : d.status = .active)
    (hself : d = e → status = .active) : f'.StillActive d :=
  h.touch.stillActive hwf hd hactive hself

/-- A request without an active user changes nothing. -/
theorem currentUser_refuses {β : Type} {s : Sys} {id : Uuid} (h : ¬s.IsActive id)
    (k : User → Handler β) : wp perform (currentUser id >>= k) (fun t _ => t = s) s := by
  apply currentUser_then (fun _ => rfl)
  intro u hu hid hactive hpresent
  exact absurd ⟨u, hu, hid, hactive, hpresent⟩ h

end Withdrawals

section Sweep

variable {now : Int} {s : Sys}

/-- A completed sweep goes through its phases. -/
theorem complete_phases (now : Int) (s : Sys) :
    ∃ db₁ db₂, Phases now s.db db₁ db₂ (complete s (.quotaSweep now)).db := by
  obtain ⟨hstate, hresult⟩ := exec_observed_nil (Quota.runOnce now) s
  have hok : (Attempt.exec observed (Quota.runOnce now) ((s, []), [])).2 = .ok () := by
    rw [hresult]
    exact runOnce_succeeds now s
  obtain ⟨db₁, db₂, hphases, _⟩ := runOnce_phases now ((s, []), []) rfl hok
  refine ⟨db₁, db₂, ?_⟩
  have hdb : (Attempt.exec observed (Quota.runOnce now) ((s, []), [])).1.1.1.db =
      (complete s (.quotaSweep now)).db := by
    rw [hstate]
    rfl
  rw [← hdb]
  exact hphases

/-- A sweep leaves an active device alone that it does not find over a cap. -/
theorem sweep_stillActive {d : Device} (hd : d ∈ s.db.devices) (hactive : d.status = .active)
    (hunder : ¬OverQuota now s d) :
    (complete s (.quotaSweep now)).fleet.StillActive (stationOf d) := by
  obtain ⟨db₁, db₂, hphases⟩ := complete_phases now s
  -- the row after the resets
  let d₁ := (DbCall.resetDueDevices now (Db.firstOfNextMonth now)).deviceAfter d
  have hd₁ : d₁ ∈ db₁.devices := by
    rw [hphases.devices₁]
    exact DbCall.mem_devicesAfter (fun _ => by simp) hd
  have hrow : d₁.status = .active ∧ d₁.userId = d.userId ∧ d₁.allocatedIp = d.allocatedIp ∧
      d₁.monthlyByteCap = d.monthlyByteCap ∧
      d₁.currentMonthBytes = usedAt now d.quotaResetsAt d.currentMonthBytes := by
    simp only [d₁, DbCall.deviceAfter, usedAt]
    split
    · exact ⟨hactive, rfl, rfl, rfl, rfl⟩
    · exact ⟨hactive, rfl, rfl, rfl, rfl⟩
  obtain ⟨hactive₁, howner₁, hip₁, hcap₁, hused₁⟩ := hrow
  have hd₂ : d₁ ∈ db₂.devices := by
    rw [hphases.devices₂]
    refine List.mem_map.mpr ⟨d₁, hd₁, ?_⟩
    simp [resumeIf, hactive₁]
  have hnot : d₁ ∉ Db.Quota.pauseCandidates db₂ := by
    intro hpause
    obtain ⟨_, _, u₂, hu₂, ⟨hid, hstatus, hpresent⟩, hover⟩ := mem_pauseCandidates.mp hpause
    rw [hphases.users₂, hphases.users₁] at hu₂
    obtain ⟨u, hu, rfl⟩ := mem_updateWhere.mp hu₂
    rw [← overCap_eq_false, ← overCap_eq_false, hcap₁, hused₁, not_and_or,
      Bool.not_eq_false, Bool.not_eq_false] at hover
    rw [howner₁] at hid
    -- the owner is present, so the reset of the owner's counter depends on its window only
    cases hdue : due now u.quotaResetsAt with
    | false =>
        simp only [hdue, Bool.false_and, Bool.false_eq_true, ite_false] at hid hstatus hpresent hover
        refine hunder ⟨u, hu, ⟨hid, hstatus, hpresent⟩, ?_⟩
        simpa only [usedAt, hdue, Bool.false_eq_true, ite_false] using hover
    | true =>
        cases hgone : u.deletedAt with
        | some at_ =>
            simp [hdue, hgone] at hpresent
        | none =>
            simp only [hdue, hgone, Option.isNone_none, Bool.and_self, ite_true]
              at hid hstatus hpresent hover
            refine hunder ⟨u, hu, ⟨hid, hstatus, hgone⟩, ?_⟩
            rw [show usedAt now u.quotaResetsAt u.currentMonthBytes = 0 by simp [usedAt, hdue]]
            exact hover
  have hd₃ : d₁ ∈ (complete s (.quotaSweep now)).db.devices := by
    rw [hphases.devices₃]
    refine List.mem_map.mpr ⟨d₁, hd₂, ?_⟩
    rcases pauseIf_candidates hd₂ with ⟨hpause, _⟩ | ⟨_, hrow⟩
    · exact absurd hpause hnot
    · exact hrow
  refine ⟨stationOf d₁, List.mem_map_of_mem hd₃, ?_, hactive₁, hip₁⟩
  exact DbCall.deviceAfter_id _ d

end Sweep

section Steps

/-- The columns of a fleet in the rows. -/
theorem stillActive_device {s : Sys} {d : Station} (h : s.fleet.StillActive d) :
    ∃ e ∈ s.db.devices, e.id = d.id ∧ e.status = .active ∧ e.allocatedIp = d.address := by
  obtain ⟨_, he, hrest⟩ := h
  obtain ⟨e, hmem, rfl⟩ := List.mem_map.mp he
  exact ⟨e, hmem, hrest⟩

/-- A completed operation leaves every active device active at its address,
except for those that it withdraws. -/
theorem complete_stillActive {s : Sys} {op : Op} (hdone : op.Completes s) {d : Device}
    (hd : d ∈ s.db.devices) (hactive : d.status = .active) (hkeep : ¬op.Withdraws s d) :
    (complete s op).fleet.StillActive (stationOf d) := by
  have hwf := s.fleet_wf
  have hmem : stationOf d ∈ s.fleet.stations := List.mem_map_of_mem hd
  have hstation : (stationOf d).status = .active := hactive
  have hquiet : ∀ t : Sys, t.fleet = s.fleet → t.fleet.StillActive (stationOf d) := by
    intro t ht
    rw [ht]
    exact stillActive_of_mem hmem hstation
  cases op with
  | create userId body draw =>
      rcases complete_effect hdone with h | ⟨e, hnew⟩
      · exact hquiet _ h
      · refine stillActive_of_mem ?_ hstation
        rw [hnew.stations_eq]
        exact List.mem_append_left _ hmem
  | connect userId body wasOffline draw =>
      rcases complete_effect hdone with h | ⟨e, hnew⟩ | ⟨e, _, _, _, _, _, _, htouch, _⟩
      · exact hquiet _ h
      · refine stillActive_of_mem ?_ hstation
        rw [hnew.stations_eq]
        exact List.mem_append_left _ hmem
      · refine htouch.stillActive hwf hmem hstation ?_
        intro heq
        rw [← heq]
        exact hstation
  | rotateKeys userId deviceId draw =>
      rcases complete_effect hdone with h | ⟨e, _, _, _, _, _, htouch, _⟩
      · exact hquiet _ h
      · refine htouch.stillActive hwf hmem hstation ?_
        rintro rfl
        exact hstation
  | pause userId deviceId =>
      by_cases huser : s.IsActive userId
      · rcases pause_settles userId deviceId with h | ⟨e, _, howner, hid, hsettled⟩
        · exact hquiet _ h
        · refine hsettled.stillActive hwf hmem hstation ?_
          rintro rfl
          exact absurd ⟨huser, howner, hid⟩ hkeep
      · have hsame : complete s (.pause userId deviceId) = s := currentUser_refuses huser _
        exact hquiet _ (by rw [hsame])
  | unpause userId deviceId =>
      rcases complete_effect hdone with h | ⟨e, _, _, hsettled⟩
      · exact hquiet _ h
      · exact hsettled.stillActive hwf hmem hstation fun _ => rfl
  | delete userId deviceId =>
      by_cases huser : s.IsActive userId
      · rcases delete_settles userId deviceId with h | ⟨e, _, howner, hid, hsettled⟩
        · exact hquiet _ h
        · refine hsettled.stillActive hwf hmem hstation ?_
          rintro rfl
          exact absurd ⟨huser, howner, hid⟩ hkeep
      · have hsame : complete s (.delete userId deviceId) = s := currentUser_refuses huser _
        exact hquiet _ (by rw [hsame])
  | pauseDevice actorId deviceId =>
      rcases pauseDevice_settles actorId deviceId with h | ⟨hadmin, e, _, hid, hsettled⟩
      · exact hquiet _ h
      · refine hsettled.stillActive hwf hmem hstation ?_
        rintro rfl
        exact absurd ⟨hadmin, hid⟩ hkeep
  | unpauseDevice actorId deviceId =>
      rcases complete_effect hdone with h | ⟨_, e, _, _, _, hsettled⟩
      · exact hquiet _ h
      · exact hsettled.stillActive hwf hmem hstation fun _ => rfl
  | revokeDevice actorId deviceId =>
      rcases revokeDevice_settles actorId deviceId with h | ⟨hadmin, e, _, hid, hsettled⟩
      · exact hquiet _ h
      · refine hsettled.stillActive hwf hmem hstation ?_
        rintro rfl
        exact absurd ⟨hadmin, hid⟩ hkeep
  | setUserStatus actorId targetId status =>
      rcases complete_effect hdone with h | ⟨_, _, a, _, hchanged⟩
      · exact hquiet _ h
      · refine stillActive_of_mem ?_ hstation
        rw [hchanged.stations_eq]
        exact hmem
  | deleteUser actorId targetId =>
      rcases complete_effect hdone with h | ⟨hadmin, hother, herased⟩
      · exact hquiet _ h
      · refine stillActive_of_mem (herased.mem_iff.mpr ⟨hmem, ?_⟩) hstation
        intro howner
        exact hkeep ⟨hadmin, hother, howner⟩
  | deleteAccount userId now =>
      by_cases huser : s.IsActive userId
      · rcases complete_effect hdone with h | hdeleted
        · exact hquiet _ h
        · refine stillActive_of_mem ?_ hstation
          rw [SoftDeleted.stations_eq hdeleted]
          refine mem_updateWhere_of_not hmem ?_
          simp only [beq_eq_false_iff_ne, ne_eq]
          intro howner
          exact hkeep ⟨huser, howner⟩
      · have hsame : complete s (.deleteAccount userId now) = s := currentUser_refuses huser _
        exact hquiet _ (by rw [hsame])
  | rotateServerKeys actorId serverId privateKey publicKey =>
      rcases complete_effect hdone with h | ⟨_, _, hempty⟩
      · exact hquiet _ h
      · refine stillActive_of_mem ?_ hstation
        rw [hempty]
        exact hmem
  | quotaSweep now =>
      exact sweep_stillActive hd hactive hkeep
  | restart cfg =>
      rcases complete_effect hdone with h | hbooted
      · exact hquiet _ h
      · refine stillActive_of_mem ?_ hstation
        rw [Rebooted.stations_eq hbooted]
        exact hmem

end Steps

section Main

/-- A restart completes as before; the other operations always do. -/
def GatewayOp.Completes (s : Sys) : GatewayOp → Prop
  | api op => op.Completes s
  | _ => True

/-- Every installed per-device rule rests on a device that the operation does not
withdraw. -/
def KeepsAuthority (g : Gateway) : GatewayOp → Prop
  | .api op => ∀ a ∈ g.accesses, ∃ d ∈ g.sys.db.devices, g.Entitled a d ∧ ¬op.Withdraws g.sys d
  | _ => True

theorem Gateway.authorized_save {g : Gateway} (env : Forwarding.Env)
    (result : Except ApiError AccessDb) (h : g.Authorized) : (g.save env result).Authorized := by
  cases result with
  | ok access =>
      exact authorized_rebuild _
  | error e =>
      exact h

/-- Without a rebuild there are no new rules. -/
theorem Gateway.accesses_tablesAfter (g : Gateway) (op : Op) {sys : Sys} {access : AccessDb}
    {a : DeviceAccess}
    (ha : a ∈ ({ sys := sys, access := access, tables := g.tablesAfter op } : Gateway).accesses) :
    a ∈ g.accesses := by
  cases op with
  | restart cfg =>
      cases hsurvived : cfg.interfaceSurvived with
      | true =>
          simpa only [Gateway.accesses, Gateway.rules, tablesAfter, hsurvived, ite_true] using ha
      | false =>
          simp only [Gateway.accesses, Gateway.rules, tablesAfter, hsurvived, Bool.false_eq_true,
            ite_false] at ha
          cases ha
  | _ =>
      exact ha

/-- One operation keeps the rules authorized. -/
theorem step_authorized {g : Gateway} {e : Forwarding.Env × GatewayOp}
    (hdone : e.2.Completes g.sys) (h : g.Authorized) (hkeep : KeepsAuthority g e.2) :
    (g.step e).Authorized := by
  obtain ⟨env, op⟩ := e
  cases op with
  | createRule hostAgent actorId id body =>
      exact g.authorized_save env _ h
  | updateRule hostAgent actorId id body =>
      exact g.authorized_save env _ h
  | deleteRule hostAgent actorId id =>
      exact g.authorized_save env _ h
  | api op =>
      simp only [Gateway.step, Gateway.complete]
      split
      · exact authorized_rebuild _
      · refine Gateway.authorized_of_entitled fun a ha => ?_
        have hrule : a ∈ g.accesses := g.accesses_tablesAfter op ha
        obtain ⟨d, hd, ⟨hactive, hip, s, hs, hoffers, hgrant⟩, hnot⟩ := hkeep a hrule
        obtain ⟨d', hd', hid', hactive', hip'⟩ :=
          stillActive_device (complete_stillActive hdone hd hactive hnot)
        refine ⟨d', hd', hactive', hip'.trans hip, s, hs, hoffers, ?_⟩
        refine List.mem_filter.mpr ⟨?_, ?_⟩
        · rw [hid']
          exact hgrant
        · simpa using ⟨d', hd', rfl⟩

instance (s : Sys) (op : GatewayOp) : Decidable (op.Completes s) :=
  match op with
  | .api op => inferInstanceAs (Decidable (op.Completes s))
  | .createRule .. | .updateRule .. | .deleteRule .. => .isTrue trivial

/--
Along every run of completed operations none of which withdraws a device on which
an installed rule rests, every per-device rule of `ZEROVPN-WG` names the address
of an active device that a service for it is granted to, and no other device of
that server has the address.
-/
theorem host_access_authorized (db : Db) (access : AccessDb)
    (events : List (Forwarding.Env × GatewayOp))
    (hevents : Along Gateway.step (fun g e => e.2.Completes g.sys ∧ KeepsAuthority g e.2)
      (Gateway.off db access) events) :
    Always Gateway.step Gateway.Authorized (Gateway.off db access) events := by
  refine always_of_along Gateway.Authorized ?_ (fun _ h => h) ?_ hevents
  · rintro g e h ⟨hdone, hkeep⟩
    exact step_authorized hdone h hkeep
  · intro a ha
    cases ha

def sampleForwarding : Forwarding.Env where
  iface := "wg0"
  vpnCidr := ⟨0x0A000000#32, 22, Wg.Network.slash22⟩
  httpsTarget := .unset

def sampleNoServices : AccessDb where
  services := []
  grants := []
  valid := by decide

/-- The SSH port of a host for the device 20. -/
def sampleRule : SaveHostAccessRule where
  name := "Host SSH"
  description := ""
  protocol := "tcp"
  backendIp := some 0xC0A80114#32
  gatewayPort := 22
  backendPort := 22
  enabled := true
  allowAllPeers := false
  deviceIds := [20]

/-- The gateway starts, the user 2 creates the device 20, and the administrator
grants it the host. -/
def sampleGranted : List (Forwarding.Env × GatewayOp) :=
  (sampleStart.map fun op => (sampleForwarding, GatewayOp.api op)) ++
    [(sampleForwarding, GatewayOp.createRule false 1 30 sampleRule)]

/-- The same at a run that unpauses the granted device. -/
theorem host_access_authorized_sample :
    Always Gateway.step Gateway.Authorized (Gateway.off sampleDb sampleNoServices)
      (sampleGranted ++ [(sampleForwarding, GatewayOp.api (Op.unpause 2 20))]) := by
  refine host_access_authorized sampleDb sampleNoServices _ ?_
  refine ⟨⟨by decide, ?_⟩, ⟨by decide, ?_⟩, ⟨trivial, trivial⟩,
    ⟨by decide, ?_⟩, trivial⟩
  · intro a ha
    cases ha
  · have hnone : (Gateway.step (Gateway.off sampleDb sampleNoServices)
        (sampleForwarding, GatewayOp.api (.restart sampleConfig))).accesses = [] := by
      decide
    intro a ha
    rw [hnone] at ha
    cases ha
  · have hentitled : ∀ a ∈ (runEvents Gateway.step (Gateway.off sampleDb sampleNoServices)
        sampleGranted).accesses,
        ∃ d ∈ (runEvents Gateway.step (Gateway.off sampleDb sampleNoServices)
          sampleGranted).sys.db.devices,
          (runEvents Gateway.step (Gateway.off sampleDb sampleNoServices) sampleGranted).Entitled
            a d := by
      decide
    intro a ha
    obtain ⟨d, hd, hrest⟩ := hentitled a ha
    exact ⟨d, hd, hrest, fun h => h⟩

/-- The granted device is revoked and another one is created: it gets the address
and, with it, the rule. -/
theorem reallocated_address_keeps_access :
    Along Gateway.step (fun g e => e.2.Completes g.sys) (Gateway.off sampleDb sampleNoServices)
        (sampleGranted ++ [(sampleForwarding, GatewayOp.api (Op.delete 2 20)), (sampleForwarding,
          GatewayOp.api (Op.create 2 ⟨"phone", none, none⟩ ⟨21, "other", sampleOtherKey⟩))]) ∧
      ¬Always Gateway.step Gateway.Authorized (Gateway.off sampleDb sampleNoServices)
        (sampleGranted ++ [(sampleForwarding, GatewayOp.api (Op.delete 2 20)), (sampleForwarding,
          GatewayOp.api (Op.create 2 ⟨"phone", none, none⟩ ⟨21, "other", sampleOtherKey⟩))]) := by
  constructor
  · decide
  · intro h
    exact absurd h.last (by decide)

end Main

end Api
end ZeroVpn
