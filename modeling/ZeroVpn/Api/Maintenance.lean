import ZeroVpn.Api.Accounts

/-!
# Background work and start-up

`run_once` of the quota sweep (`crates/zerovpn-api/src/quota.rs`) and what
`main` and `bootstrap.rs` do on a legacy backend before the API serves
requests: the bootstrap administrator, the default server, the interface, the
allocators and `reconcile_peers`.

The contents of `wg0.conf`, endpoints and firewall rules are not modelled; the
key that the file holds is an argument of `boot`.
-/

namespace ZeroVpn

open Library

namespace Api

open Db (Uuid Device User Server DbError Email)
open Wg (IpAddr IpNetwork)

namespace Quota

/-- Step 2 of the sweep: resume the candidates one by one. -/
def resumeAll (cache : List (Uuid × Nat)) : List Device → Handler Unit
  | [] => pure ()
  | d :: ds => do
      let n : Nat ← sql (.markResumed d.id)
      if n == 0 then resumeAll cache ds
      else do
        let found ← Admin.cachedKeepalive cache d.serverId
        let _ ← call (.addPeer d.publicKey d.allocatedIp none found.1)
        resumeAll found.2 ds

/-- Step 3 of the sweep: pause the candidates one by one. -/
def pauseAll : List Device → Handler Unit
  | [] => pure ()
  | d :: ds => do
      let n : Nat ← sql (.markAutoPaused d.id)
      if n == 0 then pauseAll ds
      else do
        let _ ← call (.removePeer d.publicKey)
        pauseAll ds

/-- `run_once` at the instant `now`. -/
def runOnce (now : Int) : Handler Unit := do
  let next := Db.firstOfNextMonth now
  let _ ← sql (.resetDueUsers now next)
  let _ ← sql (.resetDueDevices now next)
  let resumable : List Device ← sql .resumeCandidates
  resumeAll [] resumable
  let exceeded : List Device ← sql .pauseCandidates
  pauseAll exceeded

end Quota

namespace Bootstrap

structure KeyPair where
  privateKey : String
  publicKey : String
  deriving DecidableEq, Repr

/-- The environment of one start of the process. -/
structure Config where
  /-- `ZEROVPN_BOOTSTRAP_ADMIN_EMAIL`, trimmed and in lower case. -/
  bootstrapEmail : String
  /-- The key found in `wg0.conf`. -/
  confKey : Option KeyPair
  /-- The key to mint when there is none. -/
  mintedKey : KeyPair
  newUserId : Uuid
  newServerId : Uuid
  now : Int
  /-- Whether the interface survived the restart of the process. -/
  interfaceSurvived : Bool
  deriving DecidableEq, Repr

/-- Promote or create the configured administrator. -/
def installAdmin (cfg : Config) : Handler Unit := do
  failIf cfg.bootstrapEmail.isEmpty (.internal [.text
    "ZEROVPN_BOOTSTRAP_ADMIN_EMAIL is required when no active admin exists"])
  let existing : Option User ← sql (.findUserByEmail (.address cfg.bootstrapEmail))
  match existing with
  | some user => do
      let _ ← sql (.promoteBootstrapAdmin user.id)
      pure ()
  | none => do
      let _ ← sql (.createUser cfg.newUserId (.address cfg.bootstrapEmail) .admin .active)
      pure ()

/-- The bootstrap administrator of `main`. -/
def ensureAdmin (cfg : Config) : Handler Unit := do
  let admins : Nat ← sql .countActiveAdmins
  if admins == 0 then installAdmin cfg else pure ()

/-- 10.0.0.0/22. -/
def defaultCidr : IpNetwork := .v4 ⟨0x0A000000#32, 22, Wg.Network.slash22⟩

/-- `ensure_default_server`. -/
def ensureDefaultServer (cfg : Config) : Handler Unit := do
  let state : Option Server ← sql .defaultKeyState
  match state with
  | some server =>
      match server.privateKeyEncrypted with
      | some encrypted => do
          let _ ← okOr encrypted.decrypt (.internal [.text "server private key"])
          pure ()
      | none =>
          match cfg.confKey with
          | some key => do
              let encrypted ← encrypt key.privateKey "encrypt server key"
              let _ ← sql (.setServerPrivateKey server.id encrypted)
          | none => do
              let encrypted ← encrypt cfg.mintedKey.privateKey "encrypt server key"
              let _ ← sql (.setKeypair server.id cfg.mintedKey.publicKey encrypted)
  | none => do
      let key := cfg.confKey.getD cfg.mintedKey
      let encrypted ← encrypt key.privateKey "encrypt server key"
      let _ ← sql (.createServer cfg.newServerId cfg.now
        { name := "Crime Tracker VPN"
          publicKey := key.publicKey
          privateKeyEncrypted := encrypted
          cidr := defaultCidr })

/-- `ensure_wg_interface_up`. -/
def ensureWgInterfaceUp : Handler Unit := do
  let up : Bool ← call .wgShow
  if up then pure ()
  else do
    let _ ← call .bringUpWg
    pure ()

/-- The loop of `build_ip_allocators`. -/
def buildAllocators : List Server → Handler Unit
  | [] => pure ()
  | server :: servers => do
      let seed : List IpAddr ← sql (.allocatedIpsForServer server.id)
      let _ ← call (.newAllocator server.id server.cidr seed)
      buildAllocators servers

/-- `build_ip_allocators`. -/
def buildIpAllocators : Handler Unit := do
  let active : List Server ← sql .listActiveServers
  buildAllocators active

/-- The loop of `reconcile_peers`. -/
def addPeers : List (String × IpAddr × Int) → Handler Unit
  | [] => pure ()
  | (publicKey, allocatedIp, keepalive) :: rows => do
      let _ ← call (.addPeer publicKey allocatedIp none (asU16 keepalive))
      addPeers rows

/-- `reconcile_peers`; `main` only logs its failure. -/
def reconcilePeers : Handler Unit := do
  match ← trySql .activePeers with
  | .ok rows => addPeers rows
  | .error _ => pure ()

/-- The start of the process, up to the point where it serves requests. -/
def boot (cfg : Config) : Handler Unit := do
  ensureAdmin cfg
  ensureDefaultServer cfg
  ensureWgInterfaceUp
  buildIpAllocators
  reconcilePeers

end Bootstrap

end Api
end ZeroVpn
