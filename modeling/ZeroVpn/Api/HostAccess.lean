import ZeroVpn.Api.Forwarding
import ZeroVpn.Api.Operations

/-!
# Host access rules

The handlers of `crates/zerovpn-api/src/routes/host_access.rs` over the tables
`vpn_services` and `vpn_service_devices`, and the query with which
`ensure_peer_only_forwarding` turns them into rules.

A grant names a device; the rule that enforces it names the address that the
device had when the rules were built.  `Gateway` puts the two together: the
state of the requests, the two tables and the packet filter.  The rules are
built again by the three handlers here, and where the interface is brought up.
-/

namespace ZeroVpn

open Library

namespace Api

open Db (Uuid Device Server DbError)
open Wg (IpAddr IpNetwork)

/-- A row of `vpn_services`. -/
structure VpnService where
  id : Uuid
  serverId : Uuid
  name : String
  description : String
  protocol : TransportProtocol
  gatewayIp : BitVec 32
  gatewayPort : Int
  backendIp : BitVec 32
  backendPort : Int
  enabled : Bool
  allowAllPeers : Bool
  deriving DecidableEq, Repr

/-- A row of `vpn_service_devices`. -/
structure Grant where
  serviceId : Uuid
  deviceId : Uuid
  deriving DecidableEq, Repr

structure AccessTables where
  services : List VpnService
  grants : List Grant
  deriving DecidableEq, Repr

/-- `CHECK (… BETWEEN 1 AND 65535)`. -/
def validPort (port : Int) : Bool := decide (1 ≤ port) && decide (port ≤ 65535)

namespace AccessTables

/-- What the database enforces on the two tables. -/
structure Valid (t : AccessTables) : Prop where
  services_id : (t.services.map VpnService.id).Nodup
  services_gateway :
    (t.services.map fun s => (s.serverId, s.protocol, s.gatewayIp, s.gatewayPort)).Nodup
  services_name : (t.services.map fun s => (s.serverId, s.name)).Nodup
  services_ports : ∀ s ∈ t.services,
    validPort s.gatewayPort = true ∧ validPort s.backendPort = true
  grants_key : t.grants.Nodup
  grants_service : ∀ g ∈ t.grants, g.serviceId ∈ t.services.map VpnService.id

theorem valid_iff (t : AccessTables) :
    t.Valid ↔
      (t.services.map VpnService.id).Nodup ∧
      (t.services.map fun s => (s.serverId, s.protocol, s.gatewayIp, s.gatewayPort)).Nodup ∧
      (t.services.map fun s => (s.serverId, s.name)).Nodup ∧
      (∀ s ∈ t.services, validPort s.gatewayPort = true ∧ validPort s.backendPort = true) ∧
      t.grants.Nodup ∧ ∀ g ∈ t.grants, g.serviceId ∈ t.services.map VpnService.id := by
  constructor
  · intro h
    exact ⟨h.services_id, h.services_gateway, h.services_name, h.services_ports, h.grants_key,
      h.grants_service⟩
  · rintro ⟨h1, h2, h3, h4, h5, h6⟩
    exact ⟨h1, h2, h3, h4, h5, h6⟩

local instance : LawfulBEq Uuid := inferInstance

instance (t : AccessTables) : Decidable t.Valid := decidable_of_iff' _ t.valid_iff

end AccessTables

/-- The two tables together with the proof that they are valid. -/
structure AccessDb extends AccessTables where
  valid : toAccessTables.Valid

namespace AccessDb

/-- `ON DELETE CASCADE`: the grants of erased devices are gone. -/
def cascade (db : AccessDb) (devices : List Device) : AccessDb where
  services := db.services
  grants := db.grants.filter fun g => (devices.map Device.id).contains g.deviceId
  valid :=
    { db.valid with
      grants_key := db.valid.grants_key.filter _
      grants_service := fun g hg => db.valid.grants_service g (List.mem_filter.mp hg).1 }

/-- Commit new tables, if the database accepts them. -/
def commit (t : AccessTables) : Except ApiError AccessDb :=
  if h : t.Valid then .ok ⟨t, h⟩ else .error (.database .constraint)

end AccessDb

/-- `SaveHostAccessRule`. -/
structure SaveHostAccessRule where
  name : String
  description : String
  protocol : String
  /-- The text of `backend_ip` as an `Ipv4Addr`, if it is one. -/
  backendIp : Option (BitVec 32)
  gatewayPort : Int
  backendPort : Int
  enabled : Bool
  allowAllPeers : Bool
  deviceIds : List Uuid
  deriving DecidableEq, Repr

/-- `char::is_whitespace`. -/
def isWhitespace (c : Char) : Bool :=
  let n := c.toNat
  decide (0x09 ≤ n ∧ n ≤ 0x0D) || n == 0x20 || n == 0x85 || n == 0xA0 || n == 0x1680 ||
    decide (0x2000 ≤ n ∧ n ≤ 0x200A) || n == 0x2028 || n == 0x2029 || n == 0x202F ||
    n == 0x205F || n == 0x3000

/-- `str::trim`. -/
def trim (s : String) : String :=
  String.ofList (((s.toList.dropWhile isWhitespace).reverse.dropWhile isWhitespace).reverse)

namespace HostAccess

/-- `require_legacy_gateway`; the flag is `ZEROVPN_WG__BACKEND` being
`host_agent`. -/
def requireLegacyGateway (hostAgent : Bool) : Except ApiError Unit :=
  if hostAgent then
    .error (.conflict [.text
      "Host Access rules are retired in host-agent mode; VPN peers can access host services"])
  else .ok ()

/-- `host_ip`. -/
def hostIp (value : Option (BitVec 32)) : Except ApiError (BitVec 32) :=
  match value with
  | some ip => .ok ip
  | none => .error (.validation [.text "managed host must be a valid IPv4 address"])

/-- `gateway_ip`: the first address after the network address. -/
def gatewayIp (cidr : IpNetwork) : Except ApiError (BitVec 32) :=
  match cidr with
  | .v4 n =>
      if n.prefixLen ≤ 30 then .ok (n.network + 1#32)
      else .error (.validation [.text "server CIDR must provide an IPv4 gateway"])
  | .v6 _ => .error (.validation [.text "server CIDR must provide an IPv4 gateway"])

/-- The two values that `validate` lets through. -/
def parseProtocol (protocol : String) : Except ApiError TransportProtocol :=
  if protocol == "tcp" then .ok .tcp
  else if protocol == "udp" then .ok .udp
  else .error (.validation [.text "protocol must be tcp or udp"])

/-- `validate`. -/
def validate (body : SaveHostAccessRule) : Except ApiError Unit := do
  if (trim body.name).isEmpty || decide (80 < body.name.utf8ByteSize) then
    throw (.validation [.text "name must contain 1–80 characters"])
  let _ ← parseProtocol body.protocol
  let _ ← hostIp body.backendIp
  if !validPort body.gatewayPort || !validPort body.backendPort then
    throw (.validation [.text "ports must be between 1 and 65535"])
  if !body.allowAllPeers && body.deviceIds.isEmpty then
    throw (.validation [.text "select at least one device or allow all peers"])

/-- `fetch_one`. -/
def fetchOne {α : Type} (row : Option α) : Except ApiError α :=
  match row with
  | some a => .ok a
  | none => .error (.database .rowNotFound)

/-- The columns that `create` and `update` write. -/
def fill (body : SaveHostAccessRule) (protocol : TransportProtocol)
    (gateway backend : BitVec 32) (s : VpnService) : VpnService :=
  { s with
    name := trim body.name
    description := trim body.description
    protocol := protocol
    gatewayIp := gateway
    gatewayPort := body.gatewayPort
    backendIp := backend
    backendPort := body.backendPort
    enabled := body.enabled
    allowAllPeers := body.allowAllPeers }

/-- The grants that the insert loop adds: devices of the service's server. -/
def grantsFor (db : Db) (serviceId serverId : Uuid) (deviceIds : List Uuid) : List Grant :=
  deviceIds.flatMap fun deviceId =>
    (db.devices.filter fun d => d.id == deviceId && d.serverId == serverId).map fun d =>
      { serviceId := serviceId, deviceId := d.id }

/-- The row of a new service before its columns are filled. -/
def blank (id serverId : Uuid) : VpnService where
  id := id
  serverId := serverId
  name := ""
  description := ""
  protocol := .tcp
  gatewayIp := 0
  gatewayPort := 0
  backendIp := 0
  backendPort := 0
  enabled := false
  allowAllPeers := false

variable (sys : Sys) (access : AccessDb) (hostAgent : Bool)

/-- The administrator of the session. -/
def admin (actorId : Uuid) : Except ApiError Unit := do
  let _ ← (Attempt.exec perform (requireAdmin actorId) sys).2
  pure ()

/-- The transaction of `POST /admin/host-access`. -/
def create (actorId id : Uuid) (body : SaveHostAccessRule) : Except ApiError AccessDb := do
  admin sys actorId
  requireLegacyGateway hostAgent
  validate body
  let server ← fetchOne (Db.Servers.defaultKeyState sys.db)
  let gateway ← gatewayIp server.cidr
  let backend ← hostIp body.backendIp
  let protocol ← parseProtocol body.protocol
  AccessDb.commit
    { services := access.services ++ [fill body protocol gateway backend (blank id server.id)]
      grants := access.grants ++ grantsFor sys.db id server.id body.deviceIds }

/-- The transaction of `PUT /admin/host-access/{id}`. -/
def update (actorId id : Uuid) (body : SaveHostAccessRule) : Except ApiError AccessDb := do
  admin sys actorId
  requireLegacyGateway hostAgent
  validate body
  let service ← fetchOne (access.services.find? fun s => s.id == id)
  let server ← fetchOne (Db.Servers.findById service.serverId sys.db)
  let gateway ← gatewayIp server.cidr
  let backend ← hostIp body.backendIp
  let protocol ← parseProtocol body.protocol
  AccessDb.commit
    { services := updateWhere (fun s => s.id == id) (fill body protocol gateway backend)
        access.services
      grants := (access.grants.filter fun g => g.serviceId != id) ++
        grantsFor sys.db id service.serverId body.deviceIds }

/-- The statement of `DELETE /admin/host-access/{id}`. -/
def delete (actorId id : Uuid) : Except ApiError AccessDb := do
  admin sys actorId
  requireLegacyGateway hostAgent
  if access.services.all fun s => s.id != id then
    throw .notFound
  AccessDb.commit
    { services := access.services.filter fun s => s.id != id
      grants := access.grants.filter fun g => g.serviceId != id }

/-- A row of the query's join: a service and, perhaps, an active device that it
is granted to. -/
structure Joined where
  service : VpnService
  device : Option Device

/-- `LEFT JOIN vpn_service_devices … LEFT JOIN devices …`. -/
def joined (db : Db) (s : VpnService) : List Joined :=
  match access.grants.filter fun g => g.serviceId == s.id with
  | [] => [⟨s, none⟩]
  | grants => grants.map fun g =>
      ⟨s, db.devices.find? fun d => d.id == g.deviceId && d.status == .active⟩

/-- The order of `INET` values, with `NULL` last. -/
def ipKey : Option IpAddr → Nat × Nat
  | some (.v4 a) => (0, a.toNat)
  | some (.v6 a) => (1, a.toNat)
  | none => (2, 0)

/-- `ORDER BY s.gateway_port, d.allocated_ip`. -/
def Joined.le (a b : Joined) : Bool :=
  let x := ipKey (a.device.map Device.allocatedIp)
  let y := ipKey (b.device.map Device.allocatedIp)
  decide (a.service.gatewayPort < b.service.gatewayPort) ||
    (a.service.gatewayPort == b.service.gatewayPort &&
      (decide (x.1 < y.1) || (x.1 == y.1 && decide (x.2 ≤ y.2))))

def Joined.row (j : Joined) : Forwarding.HostRule where
  protocol := j.service.protocol
  gatewayIp := j.service.gatewayIp
  gatewayPort := j.service.gatewayPort
  backendIp := j.service.backendIp
  backendPort := j.service.backendPort
  allowAllPeers := j.service.allowAllPeers
  sourceIp := if j.service.allowAllPeers then none else j.device.map Device.allocatedIp

/-- The query of `ensure_peer_only_forwarding`. -/
def hostRuleRows (db : Db) : List Forwarding.HostRule :=
  (((access.services.flatMap (joined access db)).filter fun j =>
    j.service.enabled && (j.service.allowAllPeers || j.device.isSome)).insertionSort
      fun a b => a.le b).map Joined.row

end HostAccess

/-- The chains of a new network namespace. -/
def IpTables.fresh : IpTables where
  filter
    | "INPUT" | "FORWARD" | "OUTPUT" => some []
    | _ => none
  nat
    | "PREROUTING" | "INPUT" | "OUTPUT" | "POSTROUTING" => some []
    | _ => none

/-- The gateway: the state of the requests, the host services and the packet
filter. -/
structure Gateway where
  sys : Sys
  access : AccessDb
  tables : IpTables

/-- The operations of the gateway. -/
inductive GatewayOp where
  | api (op : Op)
  | createRule (hostAgent : Bool) (actorId id : Uuid) (body : SaveHostAccessRule)
  | updateRule (hostAgent : Bool) (actorId id : Uuid) (body : SaveHostAccessRule)
  | deleteRule (hostAgent : Bool) (actorId id : Uuid)

/-- The operation calls `bring_up_wg`. -/
def Op.bringsUp (s : Sys) (op : Op) : Bool :=
  (Attempt.exec (Program.recorded perform) op.handler (op.start s, [])).1.2.any fun c =>
    match c with
    | .bringUpWg => true
    | _ => false

namespace Gateway

/-- A gateway that has not been started yet. -/
def off (db : Db) (access : AccessDb) : Gateway where
  sys := Sys.off db
  access := access
  tables := .fresh

/-- `ensure_peer_only_forwarding`, with every command carried out; the loop at
its end stops when the rule it removes is gone. -/
def rebuild (env : Forwarding.Env) (g : Gateway) : Gateway :=
  { g with
    tables := (Program.run Forwarding.exec
      (Forwarding.ensurePeerOnlyForwarding env (HostAccess.hostRuleRows g.access g.sys.db)
        (((g.tables.nat "POSTROUTING").getD []).count Forwarding.masqueradeRule + 1))
      g.tables).1 }

/-- The packet filter lives and dies with the interface's namespace. -/
def tablesAfter (g : Gateway) : Op → IpTables
  | .restart cfg => if cfg.interfaceSurvived then g.tables else .fresh
  | _ => g.tables

/-- An operation of the other routes, of the sweep or of the process.  No call
after `bring_up_wg` writes to a table from which the rules are built. -/
def complete (env : Forwarding.Env) (g : Gateway) (op : Op) : Gateway :=
  let sys := Api.complete g.sys op
  let after : Gateway :=
    { sys := sys, access := g.access.cascade sys.db.devices, tables := g.tablesAfter op }
  if op.bringsUp g.sys then after.rebuild env else after

/-- A request on the host rules: the transaction, the audit entry and
`reconcile`. -/
def save (env : Forwarding.Env) (g : Gateway) (result : Except ApiError AccessDb) : Gateway :=
  match result with
  | .ok access => ({ g with access := access } : Gateway).rebuild env
  | .error _ => g

/-- The state after a completed operation; the environment is that of the
process at the time. -/
def step (g : Gateway) : Forwarding.Env × GatewayOp → Gateway
  | (env, .api op) => g.complete env op
  | (env, .createRule hostAgent actorId id body) =>
      g.save env (HostAccess.create g.sys g.access hostAgent actorId id body)
  | (env, .updateRule hostAgent actorId id body) =>
      g.save env (HostAccess.update g.sys g.access hostAgent actorId id body)
  | (env, .deleteRule hostAgent actorId id) =>
      g.save env (HostAccess.delete g.sys g.access hostAgent actorId id)

end Gateway

end Api
end ZeroVpn
