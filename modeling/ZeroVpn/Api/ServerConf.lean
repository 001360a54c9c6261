import ZeroVpn.Db.Schema

/-!
# The configuration file of the server

`rotate_server_keys` of `crates/zerovpn-api/src/routes/admin.rs` and
`ensure_default_server` with `write_server_conf` of `bootstrap.rs`: the two places
that write `wg0.conf` for the default server.

Both write the private key, an address with the length of the network, and a
port.  At boot the address is the first host of the network, which the allocator
keeps for the server, and the port comes from the environment; after a rotation
the address is that of the network and the port that of the row.
-/

namespace ZeroVpn

open Db

namespace Api
namespace ServerConf

/-- The default row of `servers`. -/
structure ServerRow where
  name : String
  endpointHost : String
  endpointPort : Int
  publicKey : String
  privateKeyEncrypted : Option Ciphertext
  cidr : Wg.IpNetwork
  deriving DecidableEq, Repr

/-- The `[Interface]` settings of `wg0.conf`. -/
structure WgConf where
  privateKey : String
  address : Wg.IpAddr × Nat
  listenPort : Int
  deriving DecidableEq, Repr

/-- The row and the file. -/
structure ServerHost where
  server : ServerRow
  conf : Option WgConf
  deriving DecidableEq, Repr

/-- What the process reads of its environment; the endpoint is the result of
`resolve_server_endpoint`. -/
structure ServerEnv where
  hostAgent : Bool
  dev : Bool
  endpointHost : String
  listenPort : Int
  confWritable : Bool
  deriving DecidableEq, Repr

/-- `cidr.network()` with `cidr.prefix()`. -/
def networkAddress : Wg.IpNetwork → Wg.IpAddr × Nat
  | .v4 n => (.v4 n.network, n.prefixLen)
  | .v6 n => (.v6 n.network, n.prefixLen)

/-- The address of `write_server_conf`. -/
def serverAddress : Wg.IpNetwork → Wg.IpAddr × Nat
  | .v4 n => (.v4 (n.network + 1), n.prefixLen)
  | .v6 n => (.v6 n.network, n.prefixLen)

/-- A write of the file; a failure is logged. -/
def ServerHost.writeConf (s : ServerHost) (env : ServerEnv) (conf : WgConf) : ServerHost :=
  if env.confWritable then { s with conf := some conf } else s

/-- `rotate_server_keys` with a new key pair. -/
def rotateServerKeys (env : ServerEnv) (privateKey publicKey : String) (s : ServerHost) :
    Except String ServerHost :=
  if env.hostAgent then
    .error "server key rotation requires a separately planned host-agent cutover"
  else
    let server :=
      { s.server with
        publicKey := publicKey
        privateKeyEncrypted := some (.encrypted privateKey) }
    .ok (ServerHost.writeConf { s with server := server } env
      { privateKey := privateKey
        address := networkAddress s.server.cidr
        listenPort := s.server.endpointPort })

/-- The row after the endpoint was synced in a development environment. -/
def syncEndpoint (env : ServerEnv) (server : ServerRow) : ServerRow :=
  if env.dev && server.name == "default" then
    { server with endpointHost := env.endpointHost, endpointPort := env.listenPort }
  else server

/-- `ensure_default_server` with a row; the key pair is drawn if there is none. -/
def ensureDefaultServer (env : ServerEnv) (mintedPrivate mintedPublic : String) (s : ServerHost) :
    Except String ServerHost := do
  let server := syncEndpoint env s.server
  let (privateKey, server) ←
    match server.privateKeyEncrypted with
    | some encrypted =>
        match encrypted.decrypt with
        | some privateKey => pure (privateKey, server)
        | none => throw "server private key"
    | none =>
        match s.conf.filter fun conf => conf.privateKey != "" with
        | some conf =>
            pure (conf.privateKey,
              { server with privateKeyEncrypted := some (.encrypted conf.privateKey) })
        | none =>
            pure (mintedPrivate,
              { server with
                publicKey := mintedPublic
                privateKeyEncrypted := some (.encrypted mintedPrivate) })
  pure (ServerHost.writeConf { s with server := server } env
    { privateKey := privateKey
      address := serverAddress server.cidr
      listenPort := env.listenPort })

/-- The address that `V4Allocator::new` keeps for the server. -/
def gateway (n : Wg.Ipv4Network) : Wg.IpAddr × Nat := (.v4 (n.ipAt 1), n.prefixLen)

/-- The two writers agree, on the gateway. -/
structure ConfAgrees (n : Wg.Ipv4Network) (rotated booted : ServerHost) : Prop where
  same : rotated.conf = booted.conf
  address : ∀ conf ∈ rotated.conf, conf.address = gateway n

theorem serverAddress_gateway (n : Wg.Ipv4Network) : serverAddress (.v4 n) = gateway n := rfl

/-- The address of a network is not its gateway. -/
theorem networkAddress_ne_gateway (n : Wg.Ipv4Network) : networkAddress (.v4 n) ≠ gateway n := by
  intro h
  have haddress : n.network = n.network + 1#32 := Wg.IpAddr.v4.inj (congrArg Prod.fst h)
  have hnat := congrArg BitVec.toNat haddress
  rw [BitVec.toNat_add] at hnat
  have hlt := n.network.isLt
  have hone : (1#32).toNat = 1 := rfl
  omega

section Writers

variable {env : ServerEnv} {s s' : ServerHost} {privateKey publicKey : String}

/-- What a rotation leaves. -/
theorem rotateServerKeys_ok (hwritable : env.confWritable = true)
    (h : rotateServerKeys env privateKey publicKey s = .ok s') :
    s'.server = { s.server with
        publicKey := publicKey
        privateKeyEncrypted := some (.encrypted privateKey) } ∧
      s'.conf = some ⟨privateKey, networkAddress s.server.cidr, s.server.endpointPort⟩ := by
  unfold rotateServerKeys at h
  split at h
  · cases h
  · cases h
    simp [ServerHost.writeConf, hwritable]

theorem syncEndpoint_key (env : ServerEnv) (server : ServerRow) :
    (syncEndpoint env server).privateKeyEncrypted = server.privateKeyEncrypted ∧
      (syncEndpoint env server).cidr = server.cidr := by
  unfold syncEndpoint
  split <;> exact ⟨rfl, rfl⟩

/-- What a boot leaves with a stored key. -/
theorem ensureDefaultServer_ok {mintedPrivate mintedPublic : String}
    (hwritable : env.confWritable = true)
    (hkey : s.server.privateKeyEncrypted = some (.encrypted privateKey))
    (h : ensureDefaultServer env mintedPrivate mintedPublic s = .ok s') :
    s'.conf = some ⟨privateKey, serverAddress s.server.cidr, env.listenPort⟩ := by
  obtain ⟨hstored, hcidr⟩ := syncEndpoint_key env s.server
  rw [hkey] at hstored
  simp only [ensureDefaultServer, hstored, Ciphertext.decrypt] at h
  cases h
  simp [ServerHost.writeConf, hwritable, hcidr]

end Writers

/-- The settings after a rotation are never those of the next boot. -/
theorem rotate_server_keys_conf (env env' : ServerEnv) (s rotated booted : ServerHost)
    (n : Wg.Ipv4Network) (privateKey publicKey mintedPrivate mintedPublic : String)
    (hcidr : s.server.cidr = .v4 n) (hwritable : env.confWritable = true)
    (hrotate : rotateServerKeys env privateKey publicKey s = .ok rotated)
    (hboot : ensureDefaultServer env' mintedPrivate mintedPublic rotated = .ok booted)
    (hwritable' : env'.confWritable = true) :
    ¬ ConfAgrees n rotated booted ∧ rotated.conf ≠ booted.conf ∧
      (∀ conf ∈ rotated.conf, conf.address ≠ gateway n) ∧
      ∀ conf ∈ booted.conf, conf.privateKey = privateKey ∧ conf.address = gateway n := by
  obtain ⟨hserver, hrotated⟩ := rotateServerKeys_ok hwritable hrotate
  have hbooted : booted.conf = some ⟨privateKey, serverAddress rotated.server.cidr, env'.listenPort⟩ :=
    ensureDefaultServer_ok hwritable' (by rw [hserver]) hboot
  rw [hcidr] at hrotated
  rw [hserver] at hbooted
  simp only [hcidr, serverAddress_gateway] at hbooted
  have hother : ∀ conf ∈ rotated.conf, conf.address ≠ gateway n := by
    intro conf hconf
    rw [hrotated] at hconf
    cases hconf
    exact networkAddress_ne_gateway n
  have hgateway : ∀ conf ∈ booted.conf, conf.privateKey = privateKey ∧ conf.address = gateway n := by
    intro conf hconf
    rw [hbooted] at hconf
    cases hconf
    exact ⟨rfl, rfl⟩
  have hne : rotated.conf ≠ booted.conf := by
    intro h
    exact hother _ hrotated (hgateway _ (h ▸ hrotated)).2
  exact ⟨fun h => hne h.same, hne, hother, hgateway⟩

/-- 10.0.0.0/22 on port 51820, with a stored key. -/
def sampleServerHost : ServerHost where
  server :=
    { name := "Crime Tracker VPN"
      endpointHost := "localhost"
      endpointPort := 51820
      publicKey := "old"
      privateKeyEncrypted := some (.encrypted "old-private")
      cidr := .v4 ⟨0x0A000000#32, 22, Wg.Network.slash22⟩ }
  conf := some ⟨"old-private", (.v4 0x0A000001#32, 22), 51820⟩

def sampleServerEnv : ServerEnv := ⟨false, false, "localhost", 51820, true⟩

/-- The sample after a rotation. -/
def sampleRotated : ServerHost where
  server :=
    { sampleServerHost.server with
      publicKey := "new"
      privateKeyEncrypted := some (.encrypted "new-private") }
  conf := some ⟨"new-private", (.v4 0x0A000000#32, 22), 51820⟩

/-- The sample after a rotation and a boot. -/
def sampleBooted : ServerHost :=
  { sampleRotated with conf := some ⟨"new-private", (.v4 0x0A000001#32, 22), 51820⟩ }

theorem rotate_server_keys_conf_sample :
    rotateServerKeys sampleServerEnv "new-private" "new" sampleServerHost = .ok sampleRotated ∧
      ¬ ConfAgrees ⟨0x0A000000#32, 22, by decide⟩ sampleRotated sampleBooted := by
  have hrotate : rotateServerKeys sampleServerEnv "new-private" "new" sampleServerHost =
      .ok sampleRotated := by
    decide
  have hboot : ensureDefaultServer sampleServerEnv "" "" sampleRotated = .ok sampleBooted := by
    decide
  exact ⟨hrotate, (rotate_server_keys_conf sampleServerEnv sampleServerEnv sampleServerHost _ _ _ _ _
    _ _ rfl rfl hrotate hboot rfl).1⟩

/-- After a rotation the interface has the address of the network, until the next boot. -/
theorem rotated_conf_lacks_gateway :
    rotateServerKeys sampleServerEnv "new-private" "new" sampleServerHost = .ok sampleRotated ∧
      ensureDefaultServer sampleServerEnv "" "" sampleRotated = .ok sampleBooted ∧
      ¬ ConfAgrees ⟨0x0A000000#32, 22, by decide⟩ sampleRotated sampleBooted := by
  have hdiffer : sampleRotated.conf ≠ sampleBooted.conf := by
    decide
  exact ⟨by decide, by decide, fun h => hdiffer h.same⟩

end ServerConf
end Api
end ZeroVpn
