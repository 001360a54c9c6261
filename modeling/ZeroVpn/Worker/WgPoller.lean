import ZeroVpn.Api.Commands
import ZeroVpn.Db.UsageLedger
import ZeroVpn.HostAgent.Generation

/-!
# The statistics poller

`poll_once` of `crates/zerovpn-worker/src/wg_poller.rs` with the sources of
`wg_source.rs`, for the peer of one device, next to the kernel whose counters it
reads.

A poll is not atomic.  It looks at the interface several times and asks the
database twice, and `Poll` lists what the kernel and the rest of the program do
in between.  `World.billed` and the two totals of `Kernel` are not part of the
program: they add up what was accounted for the device and what really went
through its peers.
-/

namespace ZeroVpn

open Library

namespace Worker

open HostAgent (Instance PeerStats KernelInterface GenerationRecord Fault peerStats)
open Db (Uuid Device)
open Db.PeerUsageCheckpoints (Observation Delta Delivery deliver delivered)

section Kernel

/-- The interface, and the bytes received from and sent to the peers of the
device. -/
structure Kernel where
  interface : Option KernelInterface
  received : Nat
  sent : Nat
  deriving DecidableEq, Repr

inductive KernelEvent where
  | receive (bytes : Nat)
  | send (bytes : Nat)
  | handshake (unixSeconds : Nat)
  | removePeer
  | addPeer (publicKey : String)
  /-- The interface gets another key; its peers stay. -/
  | setKey (publicKey : String)
  | delete
  | create (identity : Instance) (publicKey : String)
  deriving DecidableEq, Repr

namespace Kernel

def peer (k : Kernel) : Option PeerStats := k.interface.bind KernelInterface.peer

/-- Change the peer of the device, if there is one. -/
def updatePeer (k : Kernel) (f : PeerStats → PeerStats) : Kernel :=
  { k with interface := k.interface.map fun i => { i with peer := i.peer.map f } }

/-- A new peer; one that is there already keeps its counters. -/
def insertPeer (k : Kernel) (publicKey : String) : Kernel :=
  { k with
    interface := k.interface.map fun i =>
      { i with peer := some (i.peer.getD ⟨publicKey, 0, 0, 0⟩) } }

/-- Count bytes only if there is a peer that they belong to. -/
def counted (k : Kernel) (bytes : Nat) : Nat := if k.peer.isSome then bytes else 0

end Kernel

def kernelStep (k : Kernel) : KernelEvent → Kernel
  | .receive bytes =>
      { k.updatePeer fun p => { p with rxBytes := p.rxBytes + bytes } with
        received := k.received + k.counted bytes }
  | .send bytes =>
      { k.updatePeer fun p => { p with txBytes := p.txBytes + bytes } with
        sent := k.sent + k.counted bytes }
  | .handshake unixSeconds => k.updatePeer fun p => { p with latestHandshake := unixSeconds }
  | .removePeer => { k with interface := k.interface.map fun i => { i with peer := none } }
  | .addPeer publicKey => k.insertPeer publicKey
  | .setKey publicKey =>
      { k with interface := k.interface.map fun i => { i with publicKey := publicKey } }
  | .delete => { k with interface := none }
  | .create identity publicKey =>
      { k with interface := some (k.interface.getD ⟨identity, publicKey, none⟩) }

end Kernel

section Snapshot

inductive StatsSource where
  | legacy
  | hostAgent
  deriving DecidableEq, Repr

structure StatsSnapshot where
  sourceGeneration : String
  peer : Option PeerStats
  deriving DecidableEq, Repr

/-- `snapshot_from_agent`. -/
def snapshotFromAgent : Except String HostAgent.StatsResponse → Except String StatsSnapshot
  | .ok ⟨some generation, peer⟩ => .ok ⟨"host:" ++ generation, peer⟩
  | .ok ⟨none, _⟩ => .error "host-agent stats missing verified interface generation"
  | .error code => .error ("host-agent stats rejected: " ++ code)

/-- `wg show wg0 dump` in the container of the worker. -/
def legacySnapshot (fails : Fault → Bool) (dump : Option KernelInterface) :
    Except String StatsSnapshot :=
  match fails .wgShow, dump with
  | false, some i => .ok ⟨"legacy:wg0", i.peer⟩
  | _, _ => .error "legacy wg observation failed"

/-- `StatsSource::snapshot`: the record of the agent afterwards and the snapshot. -/
def StatsSource.snapshot (source : StatsSource) (fails : Fault → Bool) (draw : String)
    (applied : Option String) (before dump again after : Option KernelInterface)
    (record : Option GenerationRecord) :
    Option GenerationRecord × Except String StatsSnapshot :=
  match source with
  | .legacy => (record, legacySnapshot fails dump)
  | .hostAgent =>
      ((peerStats fails draw applied before dump again after record).1,
        snapshotFromAgent (peerStats fails draw applied before dump again after record).2)

end Snapshot

section Poll

structure World where
  kernel : Kernel
  /-- The server key of the state that the agent has applied. -/
  applied : Option String
  /-- The file of the generation store. -/
  record : Option GenerationRecord
  db : Db
  /-- The deltas that were accounted for the device. -/
  billed : Delta

/-- One poll, with what happens meanwhile. -/
structure Poll where
  beforeDump : List KernelEvent
  afterDump : List KernelEvent
  afterGeneration : List KernelEvent
  beforeAccount : List KernelEvent
  fails : Fault → Bool
  /-- The identifier that a new generation gets. -/
  draw : String
  /-- Whether the answer of the source arrives. -/
  answered : Bool
  /-- The statements of others between `pubkey_index` and `account`. -/
  meanwhile : List Api.DbCall
  sampledAt : Int
  available : Bool

/-- The entry of `pubkey_index`. -/
def pubkeyIndex (publicKey : String) (db : Db) : Option Device :=
  db.devices.find? fun d => d.publicKey == publicKey && d.status != .revoked

/-- The call for a line of the dump: the key must be in the index and the counters
within the range of the database. -/
def observationOf (db : Db) (snapshot : StatsSnapshot) (sampledAt : Int) : Option Observation :=
  match snapshot.peer with
  | none => none
  | some p =>
      match pubkeyIndex p.publicKey db with
      | none => none
      | some d =>
          if p.rxBytes < 2 ^ 63 ∧ p.txBytes < 2 ^ 63 then
            some
              { deviceId := d.id
                userId := d.userId
                serverId := d.serverId
                publicKey := p.publicKey
                sourceGeneration := snapshot.sourceGeneration
                serverRx := p.rxBytes
                serverTx := p.txBytes
                sampledAt := sampledAt
                hasHandshake := decide (0 < p.latestHandshake) }
          else none

/-- A statement of another part of the program; an error changes nothing. -/
def statement (db : Db) (q : Api.DbCall) : Db :=
  match q.run db with
  | .ok (_, db') => db'
  | .error _ => db

/-- Call `account`. -/
def World.account (device : Uuid) (w : World) (c : Delivery) : World :=
  { w with
    db := delivered w.db c
    billed :=
      match (deliver w.db c).2 with
      | .ok u =>
          if c.observation.deviceId = device then
            ⟨w.billed.serverRx + u.serverRxDelta, w.billed.serverTx + u.serverTxDelta⟩
          else w.billed
      | .error _ => w.billed }

namespace Poll

variable (p : Poll) (k : Kernel)

/-- The kernel at the dump. -/
def atDump : Kernel := runEvents kernelStep k p.beforeDump

/-- The kernel when the fingerprint is taken again. -/
def atCheck : Kernel := runEvents kernelStep (p.atDump k) p.afterDump

/-- The kernel when the fingerprint is taken for the last time. -/
def atConfirm : Kernel := runEvents kernelStep (p.atCheck k) p.afterGeneration

/-- The kernel when the observation is accounted. -/
def atAccount : Kernel := runEvents kernelStep (p.atConfirm k) p.beforeAccount

/-- The record of the agent after the poll and what the source answers. -/
def snapshot (source : StatsSource) (w : World) :
    Option GenerationRecord × Except String StatsSnapshot :=
  source.snapshot p.fails p.draw w.applied w.kernel.interface (p.atDump w.kernel).interface
    (p.atCheck w.kernel).interface (p.atConfirm w.kernel).interface w.record

end Poll

/-- `poll_once`, as far as the device goes. -/
def pollOnce (device : Uuid) (source : StatsSource) (w : World) (p : Poll) : World :=
  let w' : World :=
    { w with kernel := p.atAccount w.kernel, record := (p.snapshot source w).1 }
  match p.answered, (p.snapshot source w).2 with
  | true, .ok snapshot =>
      match observationOf w.db snapshot p.sampledAt with
      | some a =>
          World.account device { w' with db := runEvents statement w.db p.meanwhile }
            ⟨a, p.available⟩
      | none => w'
  | _, _ => w'

inductive WorldEvent where
  | kernel (e : KernelEvent)
  /-- The agent applies a state with this server key. -/
  | apply (serverPublicKey : String)
  | poll (p : Poll)
  /-- The poller accounts the peer of another device. -/
  | account (c : Delivery)
  | statement (q : Api.DbCall)

def worldStep (device : Uuid) (source : StatsSource) (w : World) : WorldEvent → World
  | .kernel e => { w with kernel := kernelStep w.kernel e }
  -- a state with another key is rejected as `server_identity_change`
  | .apply serverPublicKey => { w with applied := some (w.applied.getD serverPublicKey) }
  | .poll p => pollOnce device source w p
  | .account c => if c.observation.deviceId = device then w else w.account device c
  | .statement q => { w with db := statement w.db q }

end Poll

end Worker
end ZeroVpn
