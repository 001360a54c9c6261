import ZeroVpn.Db.Repos
import ZeroVpn.HostAgent.WgDump

/-!
# Active connection flows

`crates/zerovpn-api/src/routes/connections.rs`: the flows of the kernel's
connection table, with the names of the devices that have the addresses.  The
table is read as text, from `conntrack -L` or from `/proc/net/nf_conntrack`; the
rows that the worker has ingested are the last resort.

A text is the list of its characters.  What a request reads from outside the
process is `Reads`.
-/

namespace ZeroVpn

open Library Library.Text

namespace Api
namespace Connections

open Db (Uuid Device)
open Wg (IpAddr)

/-- One side of a flow. -/
structure Endpoint where
  ip : List Char
  name : String
  deviceId : Option Uuid
  userId : Option Uuid
  deriving DecidableEq, Repr

structure Flow where
  source : Endpoint
  target : Endpoint
  sourcePort : Option Int
  targetPort : Option Int
  protocol : List Char
  deriving DecidableEq, Repr

section Parser

/-- `parse::<i32>()`. -/
def parseI32 (cs : List Char) : Option Int :=
  if cs.head? = some '-' then
    (HostAgent.readNumber cs.tail).bind fun n => if n ≤ 2 ^ 31 then some (-n) else none
  else
    let digits := if cs.head? = some '+' then cs.tail else cs
    (HostAgent.readNumber digits).bind fun n => if n < 2 ^ 31 then some (n : Int) else none

/-- `{:?}` of a port. -/
def debugPort : Option Int → List Char
  | none => "None".toList
  | some n => "Some(".toList ++ (toString n).toList ++ [')']

/-- The known protocols of the fourth layer. -/
def protocols : List (List Char) :=
  ["tcp".toList, "udp".toList, "icmp".toList, "icmpv6".toList, "sctp".toList, "dccp".toList]

/-- The first values of the four fields of a line. -/
structure Fields where
  src : Option (List Char)
  dst : Option (List Char)
  sport : Option Int
  dport : Option Int
  deriving DecidableEq, Repr

/-- One word of a line. -/
def Fields.scan (f : Fields) (part : List Char) : Fields :=
  match part.dropPrefix? "src=".toList with
  | some rest => if f.src.isNone then { f with src := some rest } else f
  | none =>
  match part.dropPrefix? "dst=".toList with
  | some rest => if f.dst.isNone then { f with dst := some rest } else f
  | none =>
  match part.dropPrefix? "sport=".toList with
  | some rest => if f.sport.isNone then { f with sport := parseI32 rest } else f
  | none =>
  match part.dropPrefix? "dport=".toList with
  | some rest => if f.dport.isNone then { f with dport := parseI32 rest } else f
  | none => f

/-- A flow before its addresses are looked up. -/
structure FlowRow where
  src : List Char
  sport : Option Int
  dst : List Char
  dport : Option Int
  proto : List Char
  deriving DecidableEq, Repr

/-- The text by which repeated flows are found. -/
def FlowRow.key (r : FlowRow) : List Char :=
  r.proto ++ ':' :: r.src ++ ':' :: debugPort r.sport ++ "->".toList ++
    r.dst ++ ':' :: debugPort r.dport

/-- The flow of a line. -/
def parseLine (line : List Char) : Option FlowRow :=
  if "ESTABLISHED".toList <:+: line then
    let parts := words line
    let proto := (parts.find? fun p => protocols.contains p).getD "tcp".toList
    let f := parts.foldl Fields.scan ⟨none, none, none, none⟩
    match f.src, f.dst with
    | some src, some dst =>
        if src = dst then none else some ⟨src, f.sport, dst, f.dport, proto⟩
    | _, _ => none
  else none

def FlowRow.flow (mkEndpoint : List Char → Endpoint) (r : FlowRow) : Flow where
  source := mkEndpoint r.src
  target := mkEndpoint r.dst
  sourcePort := r.sport
  targetPort := r.dport
  protocol := r.proto

/-- One line of the table: the keys that were seen and the flows so far. -/
def addLine (mkEndpoint : List Char → Endpoint) (acc : List (List Char) × List Flow)
    (line : List Char) : List (List Char) × List Flow :=
  match parseLine line with
  | none => acc
  | some r =>
      if r.key ∈ acc.1 then acc else (r.key :: acc.1, acc.2 ++ [r.flow mkEndpoint])

/-- One line of the table, without looking up the addresses. -/
def addRow (acc : List (List Char) × List FlowRow) (line : List Char) :
    List (List Char) × List FlowRow :=
  match parseLine line with
  | none => acc
  | some r => if r.key ∈ acc.1 then acc else (r.key :: acc.1, acc.2 ++ [r])

/-- `parse_conntrack`. -/
def parseConntrack (text : List Char) (mkEndpoint : List Char → Endpoint) : List Flow :=
  ((lines text).foldl (addLine mkEndpoint) ([], [])).2

end Parser

section Peers

structure PeerInfo where
  deviceId : Uuid
  userId : Uuid
  name : String
  deriving DecidableEq, Repr

/-- The text of an address. -/
def ipOf (display : IpAddr → List Char) (d : Device) : List Char := display d.allocatedIp

/-- A later device replaces an earlier one with the same address. -/
def buildIpIndex (display : IpAddr → List Char) (devicesAll : List Device) :
    List Char → Option PeerInfo :=
  devicesAll.foldl
    (fun m d => Function.update m (ipOf display d) (some ⟨d.id, d.userId, d.name⟩)) fun _ => none

def endpointFor (ip : List Char) (ipToPeer : List Char → Option PeerInfo) : Endpoint :=
  match ipToPeer ip with
  | some peer => ⟨ip, peer.name, some peer.deviceId, some peer.userId⟩
  | none => ⟨ip, "External", none, none⟩

end Peers

section Requests

/-- What a request reads outside of the tables of users and devices: the output of
`conntrack -L`, the file under `/proc`, the rows of `destination_ips` of the last
minute, and whether its two queries for devices succeed. -/
structure Reads where
  conntrack : Option (List Char)
  procfs : Option (List Char)
  destinations : Option (List (List Char × Option Int × List Char × Option Int × Option (List Char)))
  allOk : Bool
  ownOk : Bool

/-- `read_destination_ips_fallback`. -/
def readDestinationIpsFallback (r : Reads) (mkEndpoint : List Char → Endpoint) : List Flow :=
  match r.destinations with
  | some rows =>
      (rows.filter fun x => x.1 != x.2.2.1).map fun (src, sport, dst, dport, proto) =>
        FlowRow.flow mkEndpoint ⟨src, sport, dst, dport, proto.getD "tcp".toList⟩
  | none => []

/-- The live devices in the order of `list_all_active`: by owner, then by time of
creation, which the public key of the row stands for. -/
def listAllActive (createdAt : String → Int) (db : Db) : List Device :=
  (db.devices.filter Device.live).insertionSort fun d e =>
    d.userId < e.userId ∨ (d.userId = e.userId ∧ createdAt d.publicKey ≤ createdAt e.publicKey)

/-- `collect_flows`. -/
def collectFlows (display : IpAddr → List Char) (createdAt : String → Int) (r : Reads) (db : Db) :
    List Flow :=
  let devicesAll := if r.allOk then listAllActive createdAt db else []
  let ipToPeer := buildIpIndex display devicesAll
  let toEndpoint := fun ip => endpointFor ip ipToPeer
  let fromBinary := (r.conntrack.map fun text => parseConntrack text toEndpoint).getD []
  if !fromBinary.isEmpty then fromBinary
  else
    let fromProcfs := (r.procfs.map fun text => parseConntrack text toEndpoint).getD []
    if !fromProcfs.isEmpty then fromProcfs
    else readDestinationIpsFallback r toEndpoint

/-- The identity of a foreign device is hidden. -/
def mask (ownIps : List (List Char)) (e : Endpoint) : Endpoint :=
  if !ownIps.contains e.ip && e.deviceId.isSome then
    { e with name := "Peer", deviceId := none, userId := none }
  else e

/-- `GET /connections`. -/
def listForUser (display : IpAddr → List Char) (createdAt : String → Int) (r : Reads) (userId : Uuid)
    (db : Db) : List Flow :=
  let all := collectFlows display createdAt r db
  let ownIps := (if r.ownOk then Db.Devices.listForUser userId db else []).map (ipOf display)
  (all.filter fun f => ownIps.contains f.source.ip || ownIps.contains f.target.ip).map fun f =>
    { f with source := mask ownIps f.source, target := mask ownIps f.target }

/-- `GET /admin/connections`. -/
def listAll (display : IpAddr → List Char) (createdAt : String → Int) (r : Reads) (db : Db) :
    List Flow :=
  (collectFlows display createdAt r db).filter fun f =>
    f.source.deviceId.isSome || f.target.deviceId.isSome

end Requests

end Connections
end Api
end ZeroVpn
