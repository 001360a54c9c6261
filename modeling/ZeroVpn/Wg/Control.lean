import ZeroVpn.Wg.IpAlloc
import Mathlib.Data.List.MinMax

/-!
# Peers on a live interface

`ShellController::add_peer` and `KernelController::add_peer` of
`crates/zerovpn-wg/src/control.rs`.  Both give a peer one allowed address range,
made from the address of its device: the shell backend prints the address with
`/32`, the kernel backend asks a third-party crate for the host mask.

The interface keeps every range for one peer only: a range that is given to a
peer is taken from the peer that had it, and a packet goes to the peer with the
longest range that covers its address.
-/

namespace ZeroVpn
namespace Wg

namespace IpNetwork

def prefixLen : IpNetwork → Nat
  | .v4 n => n.prefixLen
  | .v6 n => n.prefixLen

/-- The range with the bits of the host cleared, as the interface keeps it. -/
def canonical : IpNetwork → IpNetwork
  | .v4 n => .v4 { n with addr := n.network }
  | .v6 n => .v6 { n with addr := n.network }

end IpNetwork

/-- `format!("{}/32", allocated_ip)`. -/
def slash32 : IpAddr → IpNetwork
  | .v4 a => .v4 ⟨a, 32, by decide⟩
  | .v6 a => .v6 ⟨a, 32, by decide⟩

/-- The full-length mask of an address. -/
def hostMask : IpAddr → IpNetwork
  | .v4 a => .v4 ⟨a, 32, by decide⟩
  | .v6 a => .v6 ⟨a, 128, by decide⟩

/-- The backends with a live interface. -/
inductive LiveBackend where
  | shell
  | kernel
  deriving DecidableEq, Repr

/-- The allowed range that `add_peer` installs; `host` is `IpAddrMask::host`. -/
def LiveBackend.allowedIps (host : IpAddr → IpNetwork) : LiveBackend → IpAddr → IpNetwork
  | shell, ip => slash32 ip
  | kernel, ip => host ip

/-- The ranges of an interface, each with the key of its peer. -/
abbrev Routes := List (IpNetwork × String)

/-- A peer gets one range; the ranges that it had are dropped, and the peer that had this one
loses it. -/
def Routes.setPeer (routes : Routes) (publicKey : String) (allowed : IpNetwork) : Routes :=
  (allowed.canonical, publicKey) ::
    routes.filter fun r => r.1 != allowed.canonical && r.2 != publicKey

/-- The peer that an address belongs to. -/
def Routes.owner (routes : Routes) (ip : IpAddr) : Option String :=
  ((routes.filter fun r => r.1.contains ip).argmax fun r => r.1.prefixLen).map Prod.snd

/-- A device as `add_peer` sees it. -/
structure PeerDevice where
  publicKey : String
  allocatedIp : IpAddr
  deriving DecidableEq, Repr

/-- `add_peer` for every device, the last one of the list first. -/
def LiveBackend.addPeers (host : IpAddr → IpNetwork) (b : LiveBackend)
    (devices : List PeerDevice) : Routes :=
  devices.foldr (fun d routes => routes.setPeer d.publicKey (b.allowedIps host d.allocatedIp)) []

/-- Every peer has its own address and no other. -/
structure PeersIsolated (host : IpAddr → IpNetwork) (devices : List PeerDevice) : Prop where
  /-- The backends install the same ranges. -/
  same : ∀ d ∈ devices, LiveBackend.shell.allowedIps host d.allocatedIp =
    LiveBackend.kernel.allowedIps host d.allocatedIp
  /-- A range covers the address of its device only. -/
  own : ∀ (b : LiveBackend), ∀ d ∈ devices, ∀ ip,
    (b.allowedIps host d.allocatedIp).contains ip = true ↔ ip = d.allocatedIp
  /-- No address is covered twice. -/
  apart : ∀ b : LiveBackend, devices.Pairwise fun d d' => ∀ ip,
    ¬ ((b.allowedIps host d.allocatedIp).contains ip = true ∧
      (b.allowedIps host d'.allocatedIp).contains ip = true)
  /-- Adding the others takes no address away. -/
  kept : ∀ (b : LiveBackend), ∀ d ∈ devices,
    (b.addPeers host devices).owner d.allocatedIp = some d.publicKey

section Masks

variable {w : Nat}

theorem contains_full {n : Network w} (h : n.prefixLen = w) (ip : BitVec w) :
    n.contains ip = true ↔ ip = n.addr := by
  have hbits : n.hostBits = 0 := by
    unfold Network.hostBits
    omega
  simp [Network.contains, hbits]

/-- A host mask covers one address. -/
theorem contains_hostMask (a ip : IpAddr) : (hostMask a).contains ip = true ↔ ip = a := by
  cases a with
  | v4 a =>
      cases ip with
      | v4 b =>
          simp only [hostMask, IpNetwork.contains, IpAddr.v4.injEq]
          exact contains_full rfl b
      | v6 b =>
          simp [hostMask, IpNetwork.contains]
  | v6 a =>
      cases ip with
      | v4 b =>
          simp [hostMask, IpNetwork.contains]
      | v6 b =>
          simp only [hostMask, IpNetwork.contains, IpAddr.v6.injEq]
          exact contains_full rfl b

theorem canonical_hostMask (a : IpAddr) : (hostMask a).canonical = hostMask a := by
  cases a <;> simp [hostMask, IpNetwork.canonical, Network.network, Network.hostBits]

theorem hostMask_injective : Function.Injective hostMask := by
  intro a b h
  have hcontains : (hostMask b).contains a = true := by
    rw [← h, contains_hostMask]
  exact (contains_hostMask b a).mp hcontains

/-- The printed mask is the host mask for IPv4 only. -/
theorem slash32_eq_iff (ip : IpAddr) : slash32 ip = hostMask ip ↔ ∃ a, ip = .v4 a := by
  cases ip with
  | v4 a =>
      exact ⟨fun _ => ⟨a, rfl⟩, fun _ => rfl⟩
  | v6 a =>
      constructor
      · intro h
        injection h with h
        injection h with _ h
        exact absurd h (by decide)
      · rintro ⟨b, hb⟩
        cases hb

end Masks

section Routing

/-- An address belongs to the only peer that covers it. -/
theorem owner_eq {routes : Routes} {ip : IpAddr} {publicKey : String}
    (hcovered : ∃ r ∈ routes, r.1.contains ip = true)
    (honly : ∀ r ∈ routes, r.1.contains ip = true → r.2 = publicKey) :
    routes.owner ip = some publicKey := by
  unfold Routes.owner
  cases hmax : (routes.filter fun r => r.1.contains ip).argmax fun r => r.1.prefixLen with
  | none =>
      obtain ⟨r, hr, hcontains⟩ := hcovered
      have hnil := List.argmax_eq_none.mp hmax
      have hmem : r ∈ routes.filter fun r => r.1.contains ip :=
        List.mem_filter.mpr ⟨hr, hcontains⟩
      rw [hnil] at hmem
      cases hmem
  | some r =>
      obtain ⟨hr, hcontains⟩ := List.mem_filter.mp (List.argmax_mem hmax)
      rw [Option.map_some, honly r hr hcontains]

variable {host : IpAddr → IpNetwork} {b : LiveBackend} {devices : List PeerDevice}

/-- With host masks, distinct devices have exactly their own routes. -/
theorem mem_addPeers (hmask : ∀ d ∈ devices, b.allowedIps host d.allocatedIp = hostMask d.allocatedIp)
    (hkeys : (devices.map PeerDevice.publicKey).Nodup)
    (hips : (devices.map PeerDevice.allocatedIp).Nodup) (r : IpNetwork × String) :
    r ∈ b.addPeers host devices ↔
      ∃ d ∈ devices, r = (hostMask d.allocatedIp, d.publicKey) := by
  induction devices with
  | nil =>
      simp [LiveBackend.addPeers]
  | cons d devices ih =>
      rw [List.map_cons, List.nodup_cons] at hkeys hips
      have htail := ih (fun d' hd' => hmask d' (List.mem_cons_of_mem _ hd')) hkeys.2 hips.2
      have hcons : b.addPeers host (d :: devices) =
          (b.addPeers host devices).setPeer d.publicKey (hostMask d.allocatedIp) := by
        rw [← hmask d List.mem_cons_self]
        rfl
      rw [hcons, Routes.setPeer, canonical_hostMask, List.mem_cons, List.mem_filter, htail]
      constructor
      · rintro (rfl | ⟨⟨d', hd', rfl⟩, _⟩)
        · exact ⟨d, List.mem_cons_self, rfl⟩
        · exact ⟨d', List.mem_cons_of_mem _ hd', rfl⟩
      · rintro ⟨d', hd', rfl⟩
        rcases List.mem_cons.mp hd' with rfl | hd'
        · exact .inl rfl
        · refine .inr ⟨⟨d', hd', rfl⟩, ?_⟩
          have hkey : d'.publicKey ≠ d.publicKey :=
            fun h => hkeys.1 (h ▸ List.mem_map_of_mem hd')
          have hip : hostMask d'.allocatedIp ≠ hostMask d.allocatedIp :=
            fun h => hips.1 (hostMask_injective h ▸ List.mem_map_of_mem hd')
          simp [hkey, hip]

end Routing

/-- The peers are isolated exactly when no device has an IPv6 address. -/
theorem add_peer_isolates_iff (host : IpAddr → IpNetwork) (hhost : ∀ ip, host ip = hostMask ip)
    (devices : List PeerDevice) (hkeys : (devices.map PeerDevice.publicKey).Nodup)
    (hips : (devices.map PeerDevice.allocatedIp).Nodup) :
    PeersIsolated host devices ↔ ∀ d ∈ devices, ∃ a, d.allocatedIp = .v4 a := by
  constructor
  · intro h d hd
    have hsame := h.same d hd
    exact (slash32_eq_iff d.allocatedIp).mp (hsame.trans (hhost d.allocatedIp))
  · intro hv4
    have hmask : ∀ (b : LiveBackend), ∀ d ∈ devices,
        b.allowedIps host d.allocatedIp = hostMask d.allocatedIp := by
      intro b d hd
      cases b with
      | shell =>
          exact (slash32_eq_iff d.allocatedIp).mpr (hv4 d hd)
      | kernel =>
          exact hhost d.allocatedIp
    have hown : ∀ (b : LiveBackend), ∀ d ∈ devices, ∀ ip,
        (b.allowedIps host d.allocatedIp).contains ip = true ↔ ip = d.allocatedIp := by
      intro b d hd ip
      rw [hmask b d hd]
      exact contains_hostMask d.allocatedIp ip
    refine ⟨fun d hd => (hmask .shell d hd).trans (hmask .kernel d hd).symm, hown, ?_, ?_⟩
    · intro b
      have hdistinct : devices.Pairwise fun d d' => d.allocatedIp ≠ d'.allocatedIp :=
        List.pairwise_map.mp hips
      refine hdistinct.imp_of_mem ?_
      rintro d d' hd hd' hne ip ⟨hcovers, hcovers'⟩
      exact hne (((hown b d hd ip).mp hcovers).symm.trans ((hown b d' hd' ip).mp hcovers'))
    · intro b d hd
      have hroutes := mem_addPeers (hmask b) hkeys hips
      refine owner_eq ⟨_, (hroutes _).mpr ⟨d, hd, rfl⟩, (contains_hostMask _ _).mpr rfl⟩ ?_
      intro r hr hcovers
      obtain ⟨d', hd', rfl⟩ := (hroutes r).mp hr
      have hip := (contains_hostMask _ _).mp hcovers
      rw [List.inj_on_of_nodup_map hips hd' hd hip.symm]

/-- Two devices of an IPv4 server. -/
theorem add_peer_isolates_v4 :
    PeersIsolated hostMask [⟨"first", .v4 0x0A000002⟩, ⟨"second", .v4 0x0A000003⟩] :=
  (add_peer_isolates_iff hostMask (fun _ => rfl) _ (by decide) (by decide)).mpr (by
    rintro d hd
    simp only [List.mem_cons, List.not_mem_nil, or_false] at hd
    rcases hd with rfl | rfl <;> exact ⟨_, rfl⟩)

/-- Two devices of an IPv6 server: the second one takes the range of the first. -/
theorem add_peer_shell_takes_address :
    (LiveBackend.shell.addPeers hostMask [⟨"second", .v6 0xFD000000000000000000000000000003⟩,
        ⟨"first", .v6 0xFD000000000000000000000000000002⟩]).owner
        (.v6 0xFD000000000000000000000000000002) = some "second" ∧
      ¬ PeersIsolated hostMask [⟨"second", .v6 0xFD000000000000000000000000000003⟩,
        ⟨"first", .v6 0xFD000000000000000000000000000002⟩] := by
  have hsecond : (LiveBackend.shell.addPeers hostMask
      [⟨"second", .v6 0xFD000000000000000000000000000003⟩,
        ⟨"first", .v6 0xFD000000000000000000000000000002⟩]).owner
        (.v6 0xFD000000000000000000000000000002) = some "second" := by
    decide
  refine ⟨hsecond, fun h => ?_⟩
  have hfirst := h.kept .shell _ (List.mem_cons_of_mem _ List.mem_cons_self)
  rw [hsecond] at hfirst
  exact absurd hfirst (by decide)

end Wg
end ZeroVpn
