import ZeroVpn.Api.TunnelAccess
import ZeroVpn.HostAgent.State

/-!
# The desired peers of the host agent

The read side of `HostAgentController::reconcile`
(`crates/zerovpn-api/src/host_agent_controller.rs`): the query for the desired
peers and the loop that turns its rows into a candidate.

`reconcile_peers` of the legacy backends computes the same thing from a query
of its own.  `same_peers_iff` says on which databases the two agree.
-/

namespace ZeroVpn

open Library
open HostAgent (DesiredPeer)

namespace Api

open Db (Uuid Device User Server Ciphertext DeviceStatus UserStatus)
open Wg (IpAddr)

namespace HostAgentController

/-- A row of the query for the desired peers. -/
structure PeerRow where
  publicKey : String
  allocatedIp : IpAddr
  persistentKeepalive : Int
  presharedKeyEncrypted : Option Ciphertext
  deriving DecidableEq, Repr

/-- The query for the desired peers of a server, ordered by public key. -/
def desiredRows (serverId : Uuid) (db : Db) : List PeerRow :=
  ((db.devices.filter fun d => d.serverId == serverId && d.status == .active).flatMap fun d =>
    (db.servers.filter fun v => v.id == d.serverId).flatMap fun v =>
      (db.users.filter fun u => u.id == d.userId && u.status == .active).map fun _ =>
        (⟨d.publicKey, d.allocatedIp, v.persistentKeepalive, d.presharedKeyEncrypted⟩ :
          PeerRow)).insertionSort
    fun a b => a.publicKey ≤ b.publicKey

/-- `decrypt_psk` on an optional column. -/
def decryptPsk : Option Ciphertext → Except String (Option String)
  | none => .ok none
  | some ciphertext =>
      match ciphertext.decrypt with
      | some psk => .ok (some psk)
      | none => .error "cannot decrypt peer preshared key"

/-- One turn of the loop over the rows. -/
def PeerRow.peer (row : PeerRow) : Except String DesiredPeer :=
  match row.allocatedIp with
  | .v6 _ => .error "host agent supports IPv4 peers only"
  | .v4 vpnIp =>
      match decryptPsk row.presharedKeyEncrypted with
      | .error e => .error e
      | .ok presharedKey =>
          if 0 ≤ row.persistentKeepalive ∧ row.persistentKeepalive < 65536 then
            .ok
              { publicKey := row.publicKey
                vpnIp := vpnIp
                enabled := true
                presharedKey := presharedKey
                persistentKeepalive := row.persistentKeepalive.toNat }
          else .error "invalid keepalive"

/-- The loop over the rows. -/
def peersOf : List PeerRow → Except String (List DesiredPeer)
  | [] => .ok []
  | row :: rows =>
      match row.peer with
      | .error e => .error e
      | .ok peer =>
          match peersOf rows with
          | .error e => .error e
          | .ok peers => .ok (peer :: peers)

/-- The peers of the candidate for a server. -/
def desiredPeers (serverId : Uuid) (db : Db) : Except String (List DesiredPeer) :=
  peersOf (desiredRows serverId db)

/-- The active servers; without one there is nothing to reconcile, and more than
one is an error. -/
def activeServer (db : Db) : Except String (Option Server) :=
  match (db.servers.filter Server.isActive).insertionSort
      fun a b => a.createdAt ≤ b.createdAt with
  | [] => .ok none
  | [server] => .ok (some server)
  | _ => .error "host agent requires exactly one active server"

/-- The snapshot that `reconcile` takes of the database: the server and the
peers of the candidate. -/
def desired (db : Db) : Except String (Option (Server × List DesiredPeer)) :=
  match activeServer db with
  | .error e => .error e
  | .ok none => .ok none
  | .ok (some server) =>
      match desiredPeers server.id db with
      | .error e => .error e
      | .ok peers => .ok (some (server, peers))

end HostAgentController

open HostAgentController

/-- The owner of a device has the status the query asks for. -/
def OwnerActive (db : Db) (d : Device) : Prop :=
  ∃ u ∈ db.users, u.id = d.userId ∧ u.status = .active

theorem mem_desiredRows {db : Db} {serverId : Uuid} {row : PeerRow} :
    row ∈ desiredRows serverId db ↔
      ∃ d ∈ db.devices, d.serverId = serverId ∧ d.status = .active ∧ OwnerActive db d ∧
        ∃ v ∈ db.servers, v.id = d.serverId ∧
          row = ⟨d.publicKey, d.allocatedIp, v.persistentKeepalive,
            d.presharedKeyEncrypted⟩ := by
  unfold desiredRows OwnerActive
  rw [List.mem_insertionSort]
  simp only [List.mem_flatMap, List.mem_filter, List.mem_map, Bool.and_eq_true, beq_iff_eq]
  constructor
  · rintro ⟨d, ⟨hd, hserver, hactive⟩, v, ⟨hv, hvid⟩, u, ⟨hu, huid, hstatus⟩, rfl⟩
    exact ⟨d, hd, hserver, hactive, ⟨u, hu, huid, hstatus⟩, v, hv, hvid, rfl⟩
  · rintro ⟨d, hd, hserver, hactive, ⟨u, hu, huid, hstatus⟩, v, hv, hvid, rfl⟩
    exact ⟨d, ⟨hd, hserver, hactive⟩, v, ⟨hv, hvid⟩, u, ⟨hu, huid, hstatus⟩, rfl⟩

/-- A row that the loop accepts. -/
structure PeerRow.Good (row : PeerRow) : Prop where
  ipv4 : ∃ ip, row.allocatedIp = .v4 ip
  psk : ∀ c, row.presharedKeyEncrypted = some c → c.decrypt ≠ none
  keepalive : 0 ≤ row.persistentKeepalive ∧ row.persistentKeepalive < 65536

/-- The attributes that a peer carries to an interface. -/
def peerAttributes (q : DesiredPeer) : String × Peer :=
  (q.publicKey, ⟨.v4 q.vpnIp, q.presharedKey, q.persistentKeepalive⟩)

/-- The enabled peers of a candidate, as an interface shows them. -/
def sentPeers (peers : List DesiredPeer) : List (String × Peer) :=
  (peers.filter DesiredPeer.enabled).map peerAttributes

/-- The attributes of a row. -/
def PeerRow.attributes (row : PeerRow) : String × Peer :=
  (row.publicKey, ⟨row.allocatedIp, row.presharedKeyEncrypted.bind Ciphertext.decrypt,
    row.persistentKeepalive.toNat⟩)

theorem PeerRow.Good.peer_eq {row : PeerRow} (h : PeerRow.Good row) :
    ∃ q, row.peer = .ok q ∧ q.enabled = true ∧
      peerAttributes q = PeerRow.attributes row := by
  obtain ⟨ip, hip⟩ := h.ipv4
  have hpsk : decryptPsk row.presharedKeyEncrypted =
      .ok (row.presharedKeyEncrypted.bind Ciphertext.decrypt) := by
    cases hcol : row.presharedKeyEncrypted with
    | none =>
        rfl
    | some c =>
        obtain ⟨psk, hdecrypt⟩ := Option.ne_none_iff_exists'.mp (h.psk c hcol)
        simp [decryptPsk, hdecrypt]
  refine ⟨⟨row.publicKey, ip, true, row.presharedKeyEncrypted.bind Ciphertext.decrypt,
    row.persistentKeepalive.toNat⟩, ?_, rfl, ?_⟩
  · simp only [PeerRow.peer, hip, hpsk, if_pos h.keepalive]
  · simp only [peerAttributes, PeerRow.attributes, hip]

/-- The loop keeps every row, in order. -/
theorem peersOf_eq {rows : List PeerRow} (h : ∀ row ∈ rows, PeerRow.Good row) :
    ∃ peers, peersOf rows = .ok peers ∧ sentPeers peers = rows.map PeerRow.attributes := by
  induction rows with
  | nil =>
      exact ⟨[], rfl, rfl⟩
  | cons row rows ih =>
      obtain ⟨q, hq, henabled, hattributes⟩ := (h row (by simp)).peer_eq
      obtain ⟨peers, hpeers, hsent⟩ := ih (fun r hr => h r (List.mem_cons_of_mem _ hr))
      refine ⟨q :: peers, by simp only [peersOf, hq, hpeers], ?_⟩
      have hfilter : (q :: peers).filter DesiredPeer.enabled =
          q :: peers.filter DesiredPeer.enabled := List.filter_cons_of_pos henabled
      rw [sentPeers, hfilter, List.map_cons, List.map_cons, hattributes]
      exact congrArg _ hsent

/-- The loop of `reconcile_peers` over rows with distinct keys. -/
theorem addPeers_interface (rows : List (String × IpAddr × Int))
    (hkeys : (rows.map Prod.fst).Nodup) (s : Sys) (k : String) (p : Peer) :
    ((Bootstrap.addPeers rows).exec perform s).1.interface k = some p ↔
      (∃ row ∈ rows, row.1 = k ∧ p = ⟨row.2.1, none, asU16 row.2.2⟩) ∨
        (k ∉ rows.map Prod.fst ∧ s.interface k = some p) := by
  induction rows generalizing s with
  | nil =>
      simp [Bootstrap.addPeers, Attempt.exec_pure]
  | cons row rows ih =>
      obtain ⟨key, ip, keepalive⟩ := row
      rw [List.map_cons, List.nodup_cons] at hkeys
      obtain ⟨hfresh, hrest⟩ := hkeys
      have hstep : ((Bootstrap.addPeers ((key, ip, keepalive) :: rows)).exec perform s) =
          (Bootstrap.addPeers rows).exec perform
            { s with interface := s.interface.addPeer key ⟨ip, none, asU16 keepalive⟩ } := rfl
      rw [hstep, ih hrest]
      by_cases hk : k = key
      · subst hk
        have hnone : ∀ row ∈ rows, row.1 ≠ k := by
          intro row hrow heq
          exact hfresh (List.mem_map.mpr ⟨row, hrow, heq⟩)
        simp only [Interface.addPeer_self, List.mem_cons, List.map_cons]
        constructor
        · rintro (⟨row, hrow, heq, _⟩ | ⟨_, hp⟩)
          · exact absurd heq (hnone row hrow)
          · exact Or.inl ⟨_, Or.inl rfl, rfl, (Option.some.inj hp).symm⟩
        · rintro (⟨row, rfl | hrow, heq, hp⟩ | ⟨hnot, _⟩)
          · exact Or.inr ⟨hfresh, by rw [hp]⟩
          · exact absurd heq (hnone row hrow)
          · exact absurd (Or.inl trivial) hnot
      · simp only [Interface.addPeer_of_ne hk, List.mem_cons, List.map_cons]
        constructor
        · rintro (⟨row, hrow, heq, hp⟩ | ⟨hnot, hp⟩)
          · exact Or.inl ⟨row, Or.inr hrow, heq, hp⟩
          · exact Or.inr ⟨by simp [hk, hnot], hp⟩
        · rintro (⟨row, rfl | hrow, heq, hp⟩ | ⟨hnot, hp⟩)
          · exact absurd heq.symm hk
          · exact Or.inl ⟨row, hrow, heq, hp⟩
          · exact Or.inr ⟨fun h => hnot (Or.inr h), hp⟩

/-- The interface that `reconcile_peers` builds from an empty one. -/
def reconciledInterface (db : Db) : Interface :=
  (Bootstrap.reconcilePeers.exec perform { Sys.off db with up := true }).1.interface

/-- Each active device is one row of the query of `reconcile_peers`. -/
theorem activePeers_keys (db : Db) :
    ((DbCall.activePeersOf db).map Prod.fst).Nodup := by
  have hkeys : ∀ ds : List Device, (∀ d ∈ ds, d ∈ db.devices) →
      ((ds.flatMap fun d => (db.servers.filter fun v => v.id == d.serverId).map fun v =>
        (d.publicKey, d.allocatedIp, v.persistentKeepalive)).map Prod.fst) =
        ds.map Device.publicKey := by
    intro ds hds
    induction ds with
    | nil =>
        rfl
    | cons d ds ih =>
        obtain ⟨server, hserver⟩ := joined_server (hds d (by simp))
        rw [List.flatMap_cons, hserver, List.map_append,
          ih (fun e he => hds e (List.mem_cons_of_mem _ he))]
        rfl
  unfold DbCall.activePeersOf
  rw [hkeys _ (fun d hd => (List.mem_filter.mp hd).1)]
  exact db.valid.devices_publicKey.sublist (List.filter_sublist.map _)

/-- `reconcile_peers` installs the active devices of every server, without a
preshared key. -/
theorem reconciledInterface_eq_some {db : Db} {k : String} {p : Peer} :
    reconciledInterface db k = some p ↔
      ∃ d ∈ db.devices, d.status = .active ∧ ∃ v ∈ db.servers, v.id = d.serverId ∧
        d.publicKey = k ∧ p = ⟨d.allocatedIp, none, asU16 v.persistentKeepalive⟩ := by
  have hrun : reconciledInterface db k =
      ((Bootstrap.addPeers (DbCall.activePeersOf db)).exec perform
        { Sys.off db with up := true }).1.interface k := rfl
  rw [hrun, addPeers_interface _ (activePeers_keys db)]
  simp only [DbCall.activePeersOf, List.mem_flatMap, List.mem_filter, List.mem_map,
    beq_iff_eq]
  constructor
  · rintro (⟨row, ⟨d, ⟨hd, hactive⟩, v, ⟨hv, hvid⟩, rfl⟩, hkey, hp⟩ | ⟨_, hnone⟩)
    · exact ⟨d, hd, hactive, v, hv, hvid, hkey, hp⟩
    · cases hnone
  · rintro ⟨d, hd, hactive, v, hv, hvid, hkey, hp⟩
    exact Or.inl ⟨_, ⟨d, ⟨hd, hactive⟩, v, ⟨hv, hvid⟩, rfl⟩, hkey, hp⟩

/-- The two casts of the keepalive agree on what the schema admits. -/
theorem asU16_of_valid {db : Db} {v : Server} (hv : v ∈ db.servers) :
    asU16 v.persistentKeepalive = v.persistentKeepalive.toNat := by
  obtain ⟨hlow, hhigh⟩ := db.valid.servers_keepalive v hv
  unfold asU16
  omega

/-- The devices that an IPv4 server with readable preshared keys hands to the
host agent. -/
theorem mem_sentPeers {db : Db} {server : Server}
    (hipv4 : ∀ d ∈ db.devices, d.serverId = server.id → ∃ ip, d.allocatedIp = .v4 ip)
    (hpsk : ∀ d ∈ db.devices, ∀ c, d.presharedKeyEncrypted = some c → c.decrypt ≠ none) :
    ∃ peers, desiredPeers server.id db = .ok peers ∧
      ∀ k p, (k, p) ∈ sentPeers peers ↔
        ∃ d ∈ db.devices, d.serverId = server.id ∧ d.status = .active ∧ OwnerActive db d ∧
          ∃ v ∈ db.servers, v.id = d.serverId ∧ d.publicKey = k ∧
            p = ⟨d.allocatedIp, d.presharedKeyEncrypted.bind Ciphertext.decrypt,
              asU16 v.persistentKeepalive⟩ := by
  have hgood : ∀ row ∈ desiredRows server.id db, PeerRow.Good row := by
    intro row hrow
    obtain ⟨d, hd, hserver, _, _, v, hv, _, rfl⟩ := mem_desiredRows.mp hrow
    have hkeepalive := db.valid.servers_keepalive v hv
    exact ⟨hipv4 d hd hserver, hpsk d hd, by dsimp only; omega⟩
  obtain ⟨peers, hpeers, hsent⟩ := peersOf_eq hgood
  refine ⟨peers, hpeers, ?_⟩
  intro k p
  rw [hsent]
  simp only [List.mem_map, mem_desiredRows]
  constructor
  · rintro ⟨row, ⟨d, hd, hserver, hactive, howner, v, hv, hvid, rfl⟩, hrow⟩
    cases hrow
    exact ⟨d, hd, hserver, hactive, howner, v, hv, hvid, rfl, by rw [asU16_of_valid hv]⟩
  · rintro ⟨d, hd, hserver, hactive, howner, v, hv, hvid, rfl, rfl⟩
    refine ⟨_, ⟨d, hd, hserver, hactive, howner, v, hv, hvid, rfl⟩, ?_⟩
    rw [PeerRow.attributes, asU16_of_valid hv]

/--
On a database with one active IPv4 server and readable preshared keys, the peers
that `reconcile_peers` installs on an empty interface are those that `reconcile`
sends to the host agent exactly when every active device belongs to that server
and to an active account and has no preshared key.
-/
theorem same_peers_iff (db : Db) (server : Server)
    (hone : db.servers.filter Server.isActive = [server])
    (hipv4 : ∀ d ∈ db.devices, d.serverId = server.id → ∃ ip, d.allocatedIp = .v4 ip)
    (hpsk : ∀ d ∈ db.devices, ∀ c, d.presharedKeyEncrypted = some c → c.decrypt ≠ none) :
    ∃ peers, desired db = .ok (some (server, peers)) ∧
      ((∀ k p, reconciledInterface db k = some p ↔ (k, p) ∈ sentPeers peers) ↔
        ∀ d ∈ db.devices, d.status = .active →
          d.serverId = server.id ∧ OwnerActive db d ∧ d.presharedKeyEncrypted = none) := by
  obtain ⟨peers, hpeers, hsent⟩ := mem_sentPeers hipv4 hpsk
  have hserver : activeServer db = .ok (some server) := by
    unfold activeServer
    rw [hone]
    rfl
  refine ⟨peers, by simp only [desired, hserver, hpeers], ?_⟩
  constructor
  · intro hsame d hd hactive
    obtain ⟨v, hv, hvid⟩ := List.mem_map.mp (db.valid.devices_server d hd)
    have hinstalled := reconciledInterface_eq_some.mpr
      ⟨d, hd, hactive, v, hv, hvid, rfl, rfl⟩
    obtain ⟨e, he, hserver, _, howner, _, _, _, hkey, hpeer⟩ :=
      (hsent _ _).mp ((hsame _ _).mp hinstalled)
    obtain rfl : e = d := db.publicKey_unique he hd hkey
    refine ⟨hserver, howner, ?_⟩
    have hnone : e.presharedKeyEncrypted.bind Ciphertext.decrypt = none :=
      (congrArg Peer.presharedKey hpeer).symm
    cases hcol : e.presharedKeyEncrypted with
    | none =>
        rfl
    | some c =>
        rw [hcol] at hnone
        exact absurd hnone (hpsk e he c hcol)
  · intro hcond k p
    rw [reconciledInterface_eq_some, hsent]
    constructor
    · rintro ⟨d, hd, hactive, v, hv, hvid, hkey, rfl⟩
      obtain ⟨hserver, howner, hnone⟩ := hcond d hd hactive
      exact ⟨d, hd, hserver, hactive, howner, v, hv, hvid, hkey, by rw [hnone]; rfl⟩
    · rintro ⟨d, hd, _, hactive, _, v, hv, hvid, hkey, rfl⟩
      obtain ⟨_, _, hnone⟩ := hcond d hd hactive
      exact ⟨d, hd, hactive, v, hv, hvid, hkey, by rw [hnone]; rfl⟩

section Sample

/-- The sample tables with one connected device, whose owner has the given
status. -/
def sampleOwned (status : UserStatus) : Db.Tables :=
  { sampleTables with
    users :=
      [ { id := 2, email := .address "user@vpn.test", role := .user, status := status
          deletedAt := none, deviceLimit := 5, monthlyByteCap := none
          currentMonthBytes := 0, quotaResetsAt := none } ]
    devices :=
      [ { id := 20, userId := 2, serverId := 10, name := "laptop", publicKey := sampleKey
          presharedKeyEncrypted := none, allocatedIp := .v4 0x0A000002#32
          status := .active, privateKeyEncrypted := none, monthlyByteCap := none
          currentMonthBytes := 0, quotaResetsAt := none, autoPaused := false
          lifetimeRxBytes := 0, lifetimeTxBytes := 0 } ] }

def sampleActiveOwner : Db where
  toTables := sampleOwned .active
  valid := by decide

def sampleSuspendedOwner : Db where
  toTables := sampleOwned .suspended
  valid := by decide

/-- The server of the sample tables. -/
def sampleServer : Server :=
  { id := 10, name := "main", publicKey := sampleServerKey, isActive := true
    privateKeyEncrypted := some (.encrypted "server-private")
    cidr := Bootstrap.defaultCidr, persistentKeepalive := 25, createdAt := 0 }

/-- The same peers when the owner of the device is active. -/
theorem same_peers_sample :
    ∃ peers, desired sampleActiveOwner = .ok (some (sampleServer, peers)) ∧
      ∀ k p, reconciledInterface sampleActiveOwner k = some p ↔ (k, p) ∈ sentPeers peers := by
  obtain ⟨peers, hpeers, hiff⟩ := same_peers_iff sampleActiveOwner sampleServer
    (by decide)
    (fun d hd _ => ⟨0x0A000002#32, by revert d; decide⟩)
    (fun d hd c hc => by
      have hnone : ∀ e ∈ sampleActiveOwner.devices, e.presharedKeyEncrypted = none := by
        decide
      rw [hnone d hd] at hc
      cases hc)
  refine ⟨peers, hpeers, hiff.mpr ?_⟩
  intro d hd _
  have hdevice : ∀ e ∈ sampleActiveOwner.devices, e.serverId = sampleServer.id ∧
      (∃ u ∈ sampleActiveOwner.users, u.id = e.userId ∧ u.status = .active) ∧
      e.presharedKeyEncrypted = none := by
    decide
  exact hdevice d hd

/-- `reconcile_peers` installs the device of a suspended owner, and `reconcile`
does not send it. -/
theorem suspended_owner_splits_backends :
    (sampleSuspendedOwner.servers.filter Server.isActive = [sampleServer] ∧
      (∀ d ∈ sampleSuspendedOwner.devices, d.presharedKeyEncrypted = none)) ∧
      desired sampleSuspendedOwner = .ok (some (sampleServer, [])) ∧
      ¬ ∀ k p, reconciledInterface sampleSuspendedOwner k = some p ↔
        (k, p) ∈ sentPeers [] := by
  refine ⟨by decide, by decide, ?_⟩
  intro hsame
  have hinstalled : reconciledInterface sampleSuspendedOwner sampleKey =
      some ⟨.v4 0x0A000002#32, none, 25⟩ := by
    decide
  have hsent := (hsame _ _).mp hinstalled
  cases hsent

end Sample

end Api
end ZeroVpn
