import ZeroVpn.Db.Repos
import ZeroVpn.Library.Pool

/-!
# What a request handler can do

A handler of `zerovpn-api` talks to three things: the database, the in-memory
address allocators and the WireGuard interface.  `ApiCmd` lists the calls it
makes to them, `ApiCmd.Reply` their answers and `ApiCmd.sem` their meaning on
the state `Sys`.  The flag of `ApiCmd.sem` says whether the call succeeds; a
call that fails has no effect.

The live interface is a map from public keys to peers that only `add_peer`,
`remove_peer` and the re-creation of the interface change.  `Sys.inFlight`
is not part of the program: it records the addresses that were handed to a
request and are neither stored in a device row nor given back yet.
-/

namespace ZeroVpn

open Library

namespace Api

open Db (Uuid Device User Server DbError Ciphertext UserStatus UserRole DeviceStatus Email)
open Wg (IpAddr IpNetwork IpAllocator AllocError)

/-- A part of a formatted message. -/
inductive MessagePart where
  | text (s : String)
  | ip (a : IpAddr)
  | nat (n : Nat)
  deriving DecidableEq, Repr

abbrev Message := List MessagePart

/-- The errors a handler returns. -/
inductive ApiError where
  | notFound
  | unauthorized
  | forbidden
  | conflict (message : Message)
  | validation (message : Message)
  | internal (message : Message)
  | database (e : DbError)
  deriving DecidableEq, Repr

/-- A configured peer of the interface. -/
structure Peer where
  allowedIp : IpAddr
  presharedKey : Option String
  keepalive : Nat
  deriving DecidableEq, Repr

/-- The peers of the live interface, by public key. -/
abbrev Interface := String → Option Peer

namespace Interface

def empty : Interface := fun _ => none

def addPeer (i : Interface) (key : String) (p : Peer) : Interface :=
  Function.update i key (some p)

def removePeer (i : Interface) (key : String) : Interface :=
  Function.update i key none

@[simp] theorem empty_apply (k : String) : empty k = none := rfl

@[simp] theorem addPeer_self (i : Interface) (key : String) (p : Peer) :
    i.addPeer key p key = some p := Function.update_self ..

theorem addPeer_of_ne {i : Interface} {key k : String} {p : Peer} (h : k ≠ key) :
    i.addPeer key p k = i k := Function.update_of_ne h ..

@[simp] theorem removePeer_self (i : Interface) (key : String) :
    i.removePeer key key = none := Function.update_self ..

theorem removePeer_of_ne {i : Interface} {key k : String} (h : k ≠ key) :
    i.removePeer key k = i k := Function.update_of_ne h ..

end Interface

/-- Which code path gives an address back to the allocator. -/
inductive Releaser where
  /-- `create` and `connect`, after a failed insert. -/
  | provision
  | teardownDevice
  | deleteUser
  | deleteAccount
  deriving DecidableEq, Repr

/-- The statements the handlers issue. -/
inductive DbCall where
  | findUser (id : Uuid)
  | findUserByEmail (email : Email)
  | deviceLimit (userId : Uuid)
  | monthQuota (userId : Uuid)
  | countActiveAdmins
  | createUser (id : Uuid) (email : Email) (role : UserRole) (status : UserStatus)
  | adminSetStatus (userId : Uuid) (status : UserStatus)
  | adminSetRole (userId : Uuid) (role : UserRole)
  | promoteBootstrapAdmin (id : Uuid)
  | softDelete (userId : Uuid) (now : Int)
  | hardDelete (userId : Uuid)
  | listForUser (userId : Uuid)
  | findForUser (userId deviceId : Uuid)
  | getById (deviceId : Uuid)
  | createDevice (id : Uuid) (d : Db.Devices.NewDevice)
  | setPrivateKeyEncrypted (userId deviceId : Uuid) (encrypted : Option Ciphertext)
  | setStatus (userId deviceId : Uuid) (status : DeviceStatus)
  | updatePublicKey (userId deviceId : Uuid) (publicKey : String)
  | setQuota (deviceId : Uuid) (cap : Option Int)
  | allocatedIpsForServer (serverId : Uuid)
  | activePeers
  | listActiveServers
  | findServer (id : Uuid)
  | defaultKeyState
  | createServer (id : Uuid) (now : Int) (new : Db.Servers.NewServer)
  | setServerPrivateKey (id : Uuid) (encrypted : Ciphertext)
  | setKeypair (id : Uuid) (publicKey : String) (encrypted : Ciphertext)
  | resetDueUsers (now next : Int)
  | resetDueDevices (now next : Int)
  | resumeCandidates
  | pauseCandidates
  | markAutoPaused (deviceId : Uuid)
  | markResumed (deviceId : Uuid)

namespace DbCall

def Reply : DbCall → Type
  | findUser _ => Option User
  | findUserByEmail _ => Option User
  | deviceLimit _ => Int
  | monthQuota _ => Option (Option Int)
  | countActiveAdmins => Nat
  | createUser .. => Uuid
  | adminSetStatus .. => Nat
  | adminSetRole .. => Nat
  | promoteBootstrapAdmin _ => Nat
  | softDelete .. => Unit
  | hardDelete _ => Unit
  | listForUser _ => List Device
  | findForUser .. => Option Device
  | getById _ => Option Device
  | createDevice .. => Uuid
  | setPrivateKeyEncrypted .. => Nat
  | setStatus .. => Nat
  | updatePublicKey .. => Nat
  | setQuota .. => Nat
  | allocatedIpsForServer _ => List IpAddr
  | activePeers => List (String × IpAddr × Int)
  | listActiveServers => List Server
  | findServer _ => Option Server
  | defaultKeyState => Option Server
  | createServer .. => Uuid
  | setServerPrivateKey .. => Unit
  | setKeypair .. => Unit
  | resetDueUsers .. => Nat
  | resetDueDevices .. => Nat
  | resumeCandidates => List Device
  | pauseCandidates => List Device
  | markAutoPaused _ => Nat
  | markResumed _ => Nat

/-- The query of `reconcile_peers`: the active devices joined with their
servers. -/
def activePeersOf (db : Db) : List (String × IpAddr × Int) :=
  (db.devices.filter fun d => d.status == .active).flatMap fun d =>
    (db.servers.filter fun s => s.id == d.serverId).map fun s =>
      (d.publicKey, d.allocatedIp, s.persistentKeepalive)

/-- Read without writing. -/
def read {α : Type} (f : Db → α) : Db.Tx α := fun db => .ok (f db, db)

/-- The meaning of a statement. -/
def run : (q : DbCall) → Db.Tx q.Reply
  | findUser id => read (Db.Users.findById id)
  | findUserByEmail email => read (Db.Users.findByEmail email)
  | deviceLimit id => read (Db.Users.deviceLimit id)
  | monthQuota id => read (Db.Users.monthQuota id)
  | countActiveAdmins => read Db.Users.countActiveAdmins
  | createUser id email role status => Db.Users.create id email role status
  | adminSetStatus id status => Db.Users.adminSetStatus id status
  | adminSetRole id role => Db.Users.adminSetRole id role
  | promoteBootstrapAdmin id => Db.Users.promoteBootstrapAdmin id
  | softDelete id now => Db.Users.softDelete id now
  | hardDelete id => Db.Users.hardDelete id
  | listForUser id => read (Db.Devices.listForUser id)
  | findForUser userId deviceId => read (Db.Devices.findForUser userId deviceId)
  | getById id => read (Db.Devices.getById id)
  | createDevice id d => Db.Devices.create id d
  | setPrivateKeyEncrypted userId deviceId encrypted =>
      Db.Devices.setPrivateKeyEncrypted userId deviceId encrypted
  | setStatus userId deviceId status => Db.Devices.setStatus userId deviceId status
  | updatePublicKey userId deviceId publicKey =>
      Db.Devices.updatePublicKey userId deviceId publicKey
  | setQuota deviceId cap => Db.Devices.setQuota deviceId cap
  | allocatedIpsForServer id => read (Db.Devices.allocatedIpsForServer id)
  | activePeers => read activePeersOf
  | listActiveServers => read Db.Servers.listActive
  | findServer id => read (Db.Servers.findById id)
  | defaultKeyState => read Db.Servers.defaultKeyState
  | createServer id now new => Db.Servers.create id now new
  | setServerPrivateKey id encrypted => Db.Servers.setPrivateKey id encrypted
  | setKeypair id publicKey encrypted => Db.Servers.setKeypair id publicKey encrypted
  | resetDueUsers now next => Db.Quota.resetDueUsers now next
  | resetDueDevices now next => Db.Quota.resetDueDevices now next
  | resumeCandidates => read Db.Quota.resumeCandidates
  | pauseCandidates => read Db.Quota.pauseCandidates
  | markAutoPaused id => Db.Quota.markAutoPaused id
  | markResumed id => Db.Quota.markResumed id

end DbCall

/-- The calls of a handler. -/
inductive ApiCmd where
  | sql (q : DbCall)
  /-- `state.allocators.get(server)`. -/
  | getAllocator (serverId : Uuid)
  | allocate (serverId : Uuid)
  | tryReserve (serverId : Uuid) (ip : IpAddr)
  | release (releaser : Releaser) (serverId : Uuid) (ip : IpAddr)
  | newAllocator (serverId : Uuid) (cidr : IpNetwork) (seed : List IpAddr)
  | addPeer (key : String) (ip : IpAddr) (presharedKey : Option String) (keepalive : Nat)
  | removePeer (key : String)
  /-- `wg show`: is the interface up. -/
  | wgShow
  /-- `bring_up_wg`: tear the interface down and create it again. -/
  | bringUpWg
  /-- `kek.encrypt`. -/
  | encrypt (plaintext : String)
  /-- Rendering of the client configuration and its QR code. -/
  | render
  | audit (action : String) (target : Option Uuid)

namespace ApiCmd

def Reply : ApiCmd → Type
  | sql q => Except DbError q.Reply
  | getAllocator _ => Bool
  | allocate _ => Option (Except AllocError IpAddr)
  | tryReserve .. => Except AllocError Unit
  | release .. => Unit
  | newAllocator .. => Unit
  | addPeer .. => Bool
  | removePeer _ => Bool
  | wgShow => Bool
  | bringUpWg => Bool
  | encrypt _ => Option Ciphertext
  | render => Bool
  | audit .. => Except DbError Unit

end ApiCmd

/-- The state the handlers share. -/
structure Sys where
  db : Db
  allocators : Uuid → Option IpAllocator
  interface : Interface
  /-- Whether the interface exists. -/
  up : Bool
  /-- Addresses handed out and neither stored nor given back. -/
  inFlight : List (Uuid × IpAddr)

namespace Sys

/-- Replace the allocator of one server. -/
def setAllocator (s : Sys) (serverId : Uuid) (a : IpAllocator) : Sys :=
  { s with allocators := Function.update s.allocators serverId (some a) }

/-- The effect of a statement on the record of addresses in flight: a stored
address is no longer in flight. -/
def inFlightAfter (s : Sys) : DbCall → List (Uuid × IpAddr)
  | .createDevice _ d => s.inFlight.erase (d.serverId, d.allocatedIp)
  | _ => s.inFlight

/-- A fresh allocator with the stored addresses marked. -/
def seeded (cidr : IpNetwork) (seed : List IpAddr) : IpAllocator :=
  seed.foldl (fun a ip => (a.markAllocated ip).1) (IpAllocator.new cidr)

end Sys

/-- The meaning of a call. -/
def ApiCmd.sem : (c : ApiCmd) → Bool → Sys → Sys × c.Reply
  | .sql q, true, s =>
      match q.run s.db with
      | .ok (r, db') => ({ s with db := db', inFlight := s.inFlightAfter q }, .ok r)
      | .error e => (s, .error e)
  | .sql _, false, s => (s, .error .unavailable)
  | .getAllocator serverId, _, s => (s, (s.allocators serverId).isSome)
  | .allocate serverId, _, s =>
      match s.allocators serverId with
      | some a =>
          match a.allocate with
          | (a', some (.ok ip)) =>
              ({ s.setAllocator serverId a' with
                  inFlight := (serverId, ip) :: s.inFlight }, some (.ok ip))
          | (a', r) => (s.setAllocator serverId a', r)
      | none => (s, some (.error .exhausted))
  | .tryReserve serverId ip, _, s =>
      match s.allocators serverId with
      | some a =>
          match a.tryReserve ip with
          | (a', .ok ()) =>
              ({ s.setAllocator serverId a' with
                  inFlight := (serverId, ip) :: s.inFlight }, .ok ())
          | (a', .error e) => (s.setAllocator serverId a', .error e)
      | none => (s, .error .outOfRange)
  | .release releaser serverId ip, _, s =>
      match s.allocators serverId with
      | some a =>
          ({ s.setAllocator serverId (a.release ip).1 with
              inFlight :=
                if releaser = .provision then s.inFlight.erase (serverId, ip)
                else s.inFlight }, ())
      | none => (s, ())
  | .newAllocator serverId cidr seed, _, s =>
      (s.setAllocator serverId (Sys.seeded cidr seed), ())
  | .addPeer key ip presharedKey keepalive, true, s =>
      ({ s with interface := s.interface.addPeer key ⟨ip, presharedKey, keepalive⟩ }, true)
  | .addPeer .., false, s => (s, false)
  | .removePeer key, true, s =>
      ({ s with interface := s.interface.removePeer key }, true)
  | .removePeer _, false, s => (s, false)
  | .wgShow, _, s => (s, s.up)
  | .bringUpWg, true, s => ({ s with interface := Interface.empty, up := true }, true)
  | .bringUpWg, false, s => (s, false)
  | .encrypt plaintext, true, s => (s, some (.encrypted plaintext))
  | .encrypt _, false, s => (s, none)
  | .render, ok, s => (s, ok)
  | .audit .., true, s => (s, .ok ())
  | .audit .., false, s => (s, .error .unavailable)

/-- Programs over the calls that stop at the first error. -/
abbrev Handler (α : Type) := Attempt ApiCmd ApiCmd.Reply ApiError α

/-- Issue a call and go on with its answer. -/
def call (c : ApiCmd) : Handler c.Reply := Attempt.lift c Except.ok

/-- Issue a statement; an error ends the request. -/
def sql (q : DbCall) : Handler q.Reply :=
  Attempt.lift (.sql q) fun r => r.mapError ApiError.database

/-- Issue a statement and go on with its outcome. -/
def trySql (q : DbCall) : Handler (Except DbError q.Reply) := call (.sql q)

/-- `ok_or`. -/
def okOr {α : Type} (o : Option α) (e : ApiError) : Handler α :=
  match o with
  | some a => pure a
  | none => throw e

/-- `if c { return Err(e) }`. -/
def failIf (c : Bool) (e : ApiError) : Handler Unit :=
  if c then throw e else pure ()

/-- `audit::record`. -/
def audit (action : String) (target : Option Uuid) : Handler Unit :=
  Attempt.lift (.audit action target) fun r => r.mapError ApiError.database

/-- `kek.encrypt`, with the caller's error text. -/
def encrypt (plaintext : String) (what : String) : Handler Ciphertext :=
  Attempt.lift (.encrypt plaintext) fun r =>
    match r with
    | some c => .ok c
    | none => .error (.internal [.text what])

/-- `if let Some(alloc) = allocators.get(server) { let _ = alloc.release(ip) }`. -/
def releaseAddress (releaser : Releaser) (serverId : Uuid) (ip : IpAddr) :
    Handler Unit := do
  let hasAllocator : Bool ← call (.getAllocator serverId)
  if hasAllocator then call (.release releaser serverId ip) else pure ()

/-- Rendering of the configuration and the QR code. -/
def render : Handler Unit :=
  Attempt.lift .render fun r =>
    match r with
    | true => .ok ()
    | false => .error (.internal [.text "render"])

/-- The cast `keepalive as u16`. -/
def asU16 (n : Int) : Nat := (n % 65536).toNat

end Api
end ZeroVpn
