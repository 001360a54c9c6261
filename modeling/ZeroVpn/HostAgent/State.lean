import Mathlib.Data.String.Basic
import Mathlib.Data.List.Basic

/-!
# The desired state and its journal file

`DesiredState`, its validation and the file `last-known-good.json` of
`crates/zerovpn-host-agent/src/state.rs`.

The digest of a state is SHA-256 over its JSON text.  It is a parameter here:
nothing in this module depends on how it is computed.
-/

namespace ZeroVpn
namespace HostAgent

structure DesiredPeer where
  publicKey : String
  vpnIp : BitVec 32
  enabled : Bool
  presharedKey : Option String
  persistentKeepalive : Nat
  deriving DecidableEq, Repr

structure DesiredState where
  revision : Nat
  serverPublicKey : String
  peers : List DesiredPeer
  deriving DecidableEq, Repr

/-- The value of a character of the standard base64 alphabet. -/
def base64Value (c : Char) : Option Nat :=
  if 'A' ≤ c ∧ c ≤ 'Z' then some (c.toNat - 65)
  else if 'a' ≤ c ∧ c ≤ 'z' then some (c.toNat - 71)
  else if '0' ≤ c ∧ c ≤ '9' then some (c.toNat + 4)
  else if c = '+' then some 62
  else if c = '/' then some 63
  else none

/-- `valid_key`: the padded base64 text of 32 bytes.  Of the 43 characters the
last one carries four bits, so its two low bits are clear. -/
def validKey (key : String) : Bool :=
  let chars := key.toList
  chars.length == 44 && chars[43]? == some '=' &&
    (chars.take 43).all (fun c => (base64Value c).isSome) &&
    (chars[42]?.bind base64Value).any fun v => v % 4 == 0

/-- `anyhow::ensure!`. -/
def ensure (c : Bool) (message : String) : Except String Unit :=
  if c then .ok () else .error message

@[simp] theorem ensure_eq_ok {c : Bool} {message : String} {u : Unit} :
    ensure c message = .ok u ↔ c = true := by
  unfold ensure
  split <;> simp_all

theorem bind_eq_ok {α β : Type} {x : Except String α} {f : α → Except String β} {b : β} :
    (x >>= f) = .ok b ↔ ∃ a, x = .ok a ∧ f a = .ok b := by
  cases x with
  | error e =>
      simp [bind, Except.bind]
  | ok a =>
      simp [bind, Except.bind]

@[simp] theorem pure_eq_ok {α : Type} {a b : α} :
    (pure a : Except String α) = .ok b ↔ a = b := by
  simp [pure, Except.pure]

theorem forM_eq_ok {β : Type} {f : β → Except String Unit} {bs : List β} :
    bs.forM f = .ok () ↔ ∀ b ∈ bs, f b = .ok () := by
  induction bs with
  | nil =>
      simp [List.forM]
  | cons b bs ih =>
      rw [List.forall_mem_cons, ← ih]
      change (f b >>= fun _ => bs.forM f) = .ok () ↔ _
      rw [bind_eq_ok]
      exact ⟨fun ⟨_, hb, hbs⟩ => ⟨hb, hbs⟩, fun ⟨hb, hbs⟩ => ⟨(), hb, hbs⟩⟩

/-- The usable addresses of 10.0.0.1/22. -/
def usableIp (ip : BitVec 32) : Bool :=
  let octet (i : Nat) : Nat := (ip.toNat >>> (8 * (3 - i))) % 256
  let inSubnet := octet 0 == 10 && octet 1 == 0 && octet 2 ≤ 3
  let reserved := (octet 2 == 0 && octet 3 ≤ 1) || (octet 2 == 3 && octet 3 == 255)
  inSubnet && !reserved

namespace DesiredState

/-- The loop of `validate` over the peers; `keys` and `ips` are the sets of
what was seen before. -/
def validatePeers (serverPublicKey : String) :
    (keys : List String) → (ips : List (BitVec 32)) → List DesiredPeer → Except String Unit
  | _, _, [] => .ok ()
  | keys, ips, peer :: peers => do
      ensure (validKey peer.publicKey) "invalid peer public key"
      match peer.presharedKey with
      | some psk => ensure (validKey psk) "invalid peer preshared key"
      | none => pure ()
      ensure (peer.publicKey != serverPublicKey) "server key used as peer"
      ensure (!keys.contains peer.publicKey) "duplicate peer key"
      ensure (usableIp peer.vpnIp) "peer IP outside usable 10.0.0.0/22"
      ensure (!ips.contains peer.vpnIp) "duplicate peer IP"
      validatePeers serverPublicKey (peer.publicKey :: keys) (peer.vpnIp :: ips) peers

/-- The checks of `validate` that do not look at the revision. -/
def validateContent (s : DesiredState) : Except String Unit := do
  ensure (validKey s.serverPublicKey) "invalid server public key"
  ensure (decide (s.peers.length ≤ 4096)) "too_many_peers"
  validatePeers s.serverPublicKey [] [] s.peers

/-- What `validate` demands of one peer. -/
structure ValidPeer (serverPublicKey : String) (peer : DesiredPeer) : Prop where
  publicKey : validKey peer.publicKey = true
  presharedKey : ∀ psk, peer.presharedKey = some psk → validKey psk = true
  notServer : peer.publicKey ≠ serverPublicKey
  vpnIp : usableIp peer.vpnIp = true

/-- What `validate` demands of a state, its revision apart. -/
structure ValidContent (s : DesiredState) : Prop where
  serverPublicKey : validKey s.serverPublicKey = true
  length_le : s.peers.length ≤ 4096
  valid : ∀ peer ∈ s.peers, ValidPeer s.serverPublicKey peer
  keys : (s.peers.map (·.publicKey)).Nodup
  ips : (s.peers.map (·.vpnIp)).Nodup

/-- One round of the loop. -/
theorem validatePeers_cons {serverPublicKey : String} {keys : List String}
    {ips : List (BitVec 32)} {peer : DesiredPeer} {peers : List DesiredPeer} :
    validatePeers serverPublicKey keys ips (peer :: peers) = .ok () ↔
      ValidPeer serverPublicKey peer ∧ peer.publicKey ∉ keys ∧ peer.vpnIp ∉ ips ∧
        validatePeers serverPublicKey (peer.publicKey :: keys) (peer.vpnIp :: ips) peers =
          .ok () := by
  have hparts : validatePeers serverPublicKey keys ips (peer :: peers) = .ok () ↔
      validKey peer.publicKey = true ∧
        (∀ psk, peer.presharedKey = some psk → validKey psk = true) ∧
        peer.publicKey ≠ serverPublicKey ∧ peer.publicKey ∉ keys ∧
        usableIp peer.vpnIp = true ∧ peer.vpnIp ∉ ips ∧
        validatePeers serverPublicKey (peer.publicKey :: keys) (peer.vpnIp :: ips) peers =
          .ok () := by
    rw [validatePeers]
    cases peer.presharedKey with
    | none =>
        simp [bind_eq_ok]
    | some psk =>
        simp [bind_eq_ok]
  rw [hparts]
  constructor
  · rintro ⟨hkey, hpsk, hserver, hnew, hip, hfresh, hrest⟩
    exact ⟨⟨hkey, hpsk, hserver, hip⟩, hnew, hfresh, hrest⟩
  · rintro ⟨hvalid, hnew, hfresh, hrest⟩
    exact ⟨hvalid.publicKey, hvalid.presharedKey, hvalid.notServer, hnew, hvalid.vpnIp, hfresh,
      hrest⟩

theorem validatePeers_eq_ok {serverPublicKey : String} {keys : List String}
    {ips : List (BitVec 32)} {peers : List DesiredPeer} :
    validatePeers serverPublicKey keys ips peers = .ok () ↔
      (∀ peer ∈ peers, ValidPeer serverPublicKey peer ∧ peer.publicKey ∉ keys ∧
        peer.vpnIp ∉ ips) ∧
      (peers.map (·.publicKey)).Nodup ∧ (peers.map (·.vpnIp)).Nodup := by
  induction peers generalizing keys ips with
  | nil =>
      simp [validatePeers]
  | cons peer peers ih =>
      rw [validatePeers_cons, ih, List.forall_mem_cons]
      simp only [List.map_cons, List.nodup_cons, List.mem_map, List.mem_cons, not_or, not_exists,
        not_and]
      constructor
      · rintro ⟨hvalid, hnew, hfresh, hrest, hkeys, hips⟩
        refine ⟨⟨⟨hvalid, hnew, hfresh⟩, ?_⟩, ⟨?_, hkeys⟩, ?_, hips⟩
        · intro p hp
          obtain ⟨hpvalid, hpkey, hpip⟩ := hrest p hp
          exact ⟨hpvalid, hpkey.2, hpip.2⟩
        · intro p hp
          exact (hrest p hp).2.1.1
        · intro p hp
          exact (hrest p hp).2.2.1
      · rintro ⟨⟨⟨hvalid, hnew, hfresh⟩, hrest⟩, ⟨hkey, hkeys⟩, hip, hips⟩
        refine ⟨hvalid, hnew, hfresh, ?_, hkeys, hips⟩
        intro p hp
        obtain ⟨hpvalid, hpkey, hpip⟩ := hrest p hp
        exact ⟨hpvalid, ⟨hkey p hp, hpkey⟩, hip p hp, hpip⟩

theorem validateContent_eq_ok {s : DesiredState} :
    s.validateContent = .ok () ↔ s.ValidContent := by
  simp only [validateContent, bind_eq_ok, ensure_eq_ok, decide_eq_true_eq, validatePeers_eq_ok,
    List.not_mem_nil, not_false_eq_true, and_true, exists_const]
  constructor
  · rintro ⟨hserver, hlength, hvalid, hkeys, hips⟩
    exact ⟨hserver, hlength, hvalid, hkeys, hips⟩
  · intro h
    exact ⟨h.serverPublicKey, h.length_le, h.valid, h.keys, h.ips⟩

variable (digest : DesiredState → String)

/-- `validate`. -/
def validate (s : DesiredState) (appliedRevision : Nat) : Except String String := do
  ensure (decide (appliedRevision < s.revision)) "stale_revision"
  s.validateContent
  pure (digest s)

theorem validate_eq_ok {s : DesiredState} {n : Nat} {d : String} :
    s.validate digest n = .ok d ↔
      n < s.revision ∧ s.validateContent = .ok () ∧ d = digest s := by
  unfold validate
  simp only [bind_eq_ok, ensure_eq_ok, decide_eq_true_eq, pure_eq_ok]
  constructor
  · rintro ⟨_, hrev, _, hcontent, hdigest⟩
    exact ⟨hrev, hcontent, hdigest.symm⟩
  · rintro ⟨hrev, hcontent, hdigest⟩
    exact ⟨(), hrev, (), hcontent, hdigest.symm⟩

end DesiredState

structure AppliedState where
  state : DesiredState
  digest : String
  deriving DecidableEq, Repr

/-- The file `last-known-good.json`. -/
inductive JournalFile where
  | missing
  /-- Not a private regular file with the JSON of an applied state. -/
  | unreadable
  | holds (applied : AppliedState)
  deriving DecidableEq, Repr

namespace JournalFile

variable (digest : DesiredState → String)

/-- `StateStore::load`, when the file system answers. -/
def load : JournalFile → Except String (Option AppliedState)
  | missing => .ok none
  | unreadable => .error "last-known-good"
  | holds applied => do
      let d ← applied.state.validate digest (applied.state.revision - 1)
      ensure (d == applied.digest) "last-known-good digest mismatch"
      pure (some applied)

/-- What a loaded journal satisfies. -/
structure Sound (applied : AppliedState) : Prop where
  positive : 0 < applied.state.revision
  content : applied.state.validateContent = .ok ()
  digest_eq : applied.digest = digest applied.state

theorem load_holds {a applied : AppliedState} :
    (holds a).load digest = .ok (some applied) ↔ a = applied ∧ Sound digest a := by
  simp only [load, bind_eq_ok, DesiredState.validate_eq_ok, ensure_eq_ok, beq_iff_eq,
    pure_eq_ok, Option.some.injEq]
  constructor
  · rintro ⟨d, ⟨hrev, hcontent, rfl⟩, _, hdigest, rfl⟩
    exact ⟨rfl, by omega, hcontent, hdigest.symm⟩
  · rintro ⟨rfl, hpos, hcontent, hdigest⟩
    exact ⟨_, ⟨by omega, hcontent, rfl⟩, (), hdigest.symm, rfl⟩

theorem load_eq_some {file : JournalFile} {applied : AppliedState} :
    file.load digest = .ok (some applied) ↔
      file = .holds applied ∧ Sound digest applied := by
  cases file with
  | missing =>
      simp [load]
  | unreadable =>
      simp [load]
  | holds a =>
      rw [load_holds]
      constructor
      · rintro ⟨rfl, hsound⟩
        exact ⟨rfl, hsound⟩
      · rintro ⟨heq, hsound⟩
        cases heq
        exact ⟨rfl, hsound⟩

theorem load_eq_none {file : JournalFile} :
    file.load digest = .ok none ↔ file = .missing := by
  cases file with
  | missing =>
      simp [load]
  | unreadable =>
      simp [load]
  | holds a =>
      simp only [load, bind_eq_ok, pure_eq_ok]
      constructor
      · rintro ⟨_, _, _, _, h⟩
        cases h
      · intro h
        cases h

end JournalFile

end HostAgent
end ZeroVpn
