import ZeroVpn.Api.Maintenance

/-!
# Accounts, devices and peers

The part of the state that decides who may use the tunnel: the status of every
account, the key, address and status of every device, and the peers of the
interface.  A `Fleet` forgets everything else, so a change of a quota counter
or of an allocator is no change of the fleet.

Three statements describe what the interface should look like.

* `PeersBelongToActiveAccounts`: every peer is the key of a stored device of
  an active account;
* `IdleDevicesHaveNoPeer`: a paused or revoked device has no peer;
* `ActiveDevicesAreServed`: an active device of an active account has its
  peer, under its key and address.

Nearly every operation touches one device (`Touch`) or adds one
(`Provisioned`); the lemmas here reduce each statement to that device.
-/

namespace ZeroVpn

open Library

namespace Api

open Db (Uuid Device User UserStatus DeviceStatus)
open Wg (IpAddr)

/-- What the peers depend on in a user row. -/
structure Account where
  id : Uuid
  status : UserStatus
  present : Bool
  deriving DecidableEq, Repr

/-- An account that may use the tunnel. -/
def Account.active (a : Account) : Bool := a.status == .active && a.present

/-- What the peers depend on in a device row. -/
structure Station where
  id : Uuid
  userId : Uuid
  publicKey : String
  address : IpAddr
  status : DeviceStatus
  deriving DecidableEq, Repr

structure Fleet where
  accounts : List Account
  stations : List Station
  interface : Interface

/-- The account of a user row. -/
def accountOf (u : User) : Account := ⟨u.id, u.status, u.deletedAt.isNone⟩

/-- The station of a device row. -/
def stationOf (d : Device) : Station :=
  ⟨d.id, d.userId, d.publicKey, d.allocatedIp, d.status⟩

/-- The fleet of a state. -/
def Sys.fleet (s : Sys) : Fleet where
  accounts := s.db.users.map accountOf
  stations := s.db.devices.map stationOf
  interface := s.interface

namespace Fleet

/-- What the schema enforces on a fleet. -/
structure Wf (f : Fleet) : Prop where
  accounts_id : (f.accounts.map Account.id).Nodup
  stations_id : (f.stations.map Station.id).Nodup
  stations_key : (f.stations.map Station.publicKey).Nodup

/-- The owner of a device is active and not deleted. -/
def ActiveOwner (f : Fleet) (d : Station) : Prop :=
  ∃ a ∈ f.accounts, a.id = d.userId ∧ a.active = true

instance (f : Fleet) (d : Station) : Decidable (f.ActiveOwner d) :=
  inferInstanceAs (Decidable (∃ a ∈ f.accounts, _))

/-- Every peer is the key of a stored device of an active account. -/
def PeersBelongToActiveAccounts (f : Fleet) : Prop :=
  (∀ d ∈ f.stations, f.interface d.publicKey ≠ none → f.ActiveOwner d) ∧
    ∀ k, f.interface k ≠ none → ∃ d ∈ f.stations, d.publicKey = k

/-- A paused or revoked device has no peer. -/
def IdleDevicesHaveNoPeer (f : Fleet) : Prop :=
  ∀ d ∈ f.stations, d.status ≠ .active → f.interface d.publicKey = none

instance (f : Fleet) : Decidable f.IdleDevicesHaveNoPeer :=
  inferInstanceAs (Decidable (∀ d ∈ f.stations, _ → _))

/-- The peer of a device is installed under its key and address. -/
def Served (f : Fleet) (d : Station) : Prop :=
  ∃ p, f.interface d.publicKey = some p ∧ p.allowedIp = d.address

theorem served_iff (f : Fleet) (d : Station) :
    f.Served d ↔ (f.interface d.publicKey).any (fun p => p.allowedIp == d.address) = true := by
  unfold Served
  cases f.interface d.publicKey with
  | none =>
      simp
  | some p =>
      simp

instance (f : Fleet) (d : Station) : Decidable (f.Served d) :=
  decidable_of_iff' _ (f.served_iff d)

/-- Every active device of an active account has its peer. -/
def ActiveDevicesAreServed (f : Fleet) : Prop :=
  ∀ d ∈ f.stations, d.status = .active → f.ActiveOwner d → f.Served d

instance (f : Fleet) : Decidable f.ActiveDevicesAreServed :=
  inferInstanceAs (Decidable (∀ d ∈ f.stations, _ → _ → _))

end Fleet

theorem Sys.fleet_wf (s : Sys) : s.fleet.Wf where
  accounts_id := by
    have h := s.db.valid.users_id
    rwa [show s.fleet.accounts.map Account.id = s.db.users.map User.id by
      simp [Sys.fleet, accountOf, Function.comp_def]]
  stations_id := by
    have h := s.db.valid.devices_id
    rwa [show s.fleet.stations.map Station.id = s.db.devices.map Device.id by
      simp [Sys.fleet, stationOf, Function.comp_def]]
  stations_key := by
    have h := s.db.valid.devices_publicKey
    rwa [show s.fleet.stations.map Station.publicKey = s.db.devices.map Device.publicKey by
      simp [Sys.fleet, stationOf, Function.comp_def]]

/-- One device `d` becomes `d'`, and the interface changes at most at its old
and its new key. -/
structure Touch (f f' : Fleet) (d d' : Station) : Prop where
  mem : d ∈ f.stations
  id_eq : d'.id = d.id
  userId_eq : d'.userId = d.userId
  address_eq : d'.address = d.address
  accounts_eq : f'.accounts = f.accounts
  stations_eq : f'.stations = updateWhere (fun e => e.id == d.id) (fun _ => d') f.stations
  frame : ∀ k, k ≠ d.publicKey → k ≠ d'.publicKey → f'.interface k = f.interface k
  old_key : d'.publicKey ≠ d.publicKey → f'.interface d.publicKey = none

namespace Touch

variable {f f' : Fleet} {d d' : Station}

theorem mem' (h : Touch f f' d d') : d' ∈ f'.stations := by
  rw [h.stations_eq]
  exact mem_updateWhere_of_pos (f := fun _ => d') h.mem (by simp)

/-- Every other device is untouched, and so is the interface at its key. -/
theorem other (h : Touch f f' d d') (hwf : f.Wf) (hwf' : f'.Wf)
    {e : Station} (he : e ∈ f'.stations) (hne : e ≠ d') :
    e ∈ f.stations ∧ e ≠ d ∧ f'.interface e.publicKey = f.interface e.publicKey := by
  have hkey' : e.publicKey ≠ d'.publicKey := by
    intro heq
    exact hne (row_unique hwf'.stations_key he h.mem' heq)
  have he' := he
  rw [h.stations_eq, mem_updateWhere] at he'
  obtain ⟨r, hr, her⟩ := he'
  by_cases hid : r.id = d.id
  · rw [if_pos (by simp [hid])] at her
    exact absurd her hne
  · rw [if_neg (by simp [hid])] at her
    subst her
    have hkey : e.publicKey ≠ d.publicKey := by
      intro heq
      exact hid (congrArg Station.id (row_unique hwf.stations_key hr h.mem heq))
    refine ⟨hr, ?_, h.frame _ hkey hkey'⟩
    rintro rfl
    exact hid rfl

theorem activeOwner_iff (h : Touch f f' d d') (e : Station) :
    f'.ActiveOwner e ↔ f.ActiveOwner e := by
  unfold Fleet.ActiveOwner
  rw [h.accounts_eq]

/-- An untouched device is still stored. -/
theorem mem_of_ne (h : Touch f f' d d') (hwf : f.Wf) {e : Station}
    (he : e ∈ f.stations) (hne : e ≠ d) : e ∈ f'.stations := by
  rw [h.stations_eq]
  apply mem_updateWhere_of_not he
  simp only [beq_eq_false_iff_ne, ne_eq]
  intro hid
  exact hne (row_unique hwf.stations_id he h.mem hid)

theorem peersBelong (h : Touch f f' d d') (hwf : f.Wf) (hwf' : f'.Wf)
    (hP : f.PeersBelongToActiveAccounts)
    (hd' : f'.interface d'.publicKey ≠ none → f.ActiveOwner d) :
    f'.PeersBelongToActiveAccounts := by
  refine ⟨?_, ?_⟩
  · intro e he hpeer
    rw [h.activeOwner_iff]
    by_cases hne : e = d'
    · subst hne
      have howner := hd' hpeer
      unfold Fleet.ActiveOwner at howner ⊢
      rwa [h.userId_eq]
    · obtain ⟨hmem, _, hsame⟩ := h.other hwf hwf' he hne
      exact hP.1 e hmem (by rwa [← hsame])
  · intro k hk
    by_cases hnew : k = d'.publicKey
    · exact ⟨d', h.mem', hnew.symm⟩
    · by_cases hold : k = d.publicKey
      · have hnone : f'.interface d.publicKey = none :=
          h.old_key (by rw [← hold]; exact Ne.symm hnew)
        exact absurd (hold ▸ hnone) hk
      · rw [h.frame k hold hnew] at hk
        obtain ⟨e, he, hek⟩ := hP.2 k hk
        refine ⟨e, h.mem_of_ne hwf he ?_, hek⟩
        rintro rfl
        exact hold hek.symm

theorem idle (h : Touch f f' d d') (hwf : f.Wf) (hwf' : f'.Wf)
    (hP : f.IdleDevicesHaveNoPeer)
    (hd' : d'.status ≠ .active → f'.interface d'.publicKey = none) :
    f'.IdleDevicesHaveNoPeer := by
  intro e he hidle
  by_cases hne : e = d'
  · subst hne
    exact hd' hidle
  · obtain ⟨hmem, _, hsame⟩ := h.other hwf hwf' he hne
    rw [hsame]
    exact hP e hmem hidle

theorem served (h : Touch f f' d d') (hwf : f.Wf) (hwf' : f'.Wf)
    (hP : f.ActiveDevicesAreServed)
    (hd' : d'.status = .active → f.ActiveOwner d → f'.Served d') :
    f'.ActiveDevicesAreServed := by
  intro e he hactive howner
  rw [h.activeOwner_iff] at howner
  by_cases hne : e = d'
  · subst hne
    apply hd' hactive
    unfold Fleet.ActiveOwner at howner ⊢
    rwa [h.userId_eq] at howner
  · obtain ⟨hmem, _, hsame⟩ := h.other hwf hwf' he hne
    unfold Fleet.Served
    rw [hsame]
    exact hP e hmem hactive howner

end Touch

/-- A new active device `d` of an active account, with its peer. -/
structure Provisioned (f f' : Fleet) (d : Station) : Prop where
  active : d.status = .active
  owner : f.ActiveOwner d
  accounts_eq : f'.accounts = f.accounts
  stations_eq : f'.stations = f.stations ++ [d]
  frame : ∀ k, k ≠ d.publicKey → f'.interface k = f.interface k
  served : f'.Served d

namespace Provisioned

variable {f f' : Fleet} {d : Station}

/-- The other devices and their peers stay. -/
theorem other (h : Provisioned f f' d) (hwf' : f'.Wf)
    {e : Station} (he : e ∈ f'.stations) (hne : e ≠ d) :
    e ∈ f.stations ∧ f'.interface e.publicKey = f.interface e.publicKey := by
  have hd : d ∈ f'.stations := by
    rw [h.stations_eq]
    simp
  have hkey : e.publicKey ≠ d.publicKey := by
    intro heq
    exact hne (row_unique hwf'.stations_key he hd heq)
  rw [h.stations_eq, List.mem_append, List.mem_singleton] at he
  rcases he with he | he
  · exact ⟨he, h.frame _ hkey⟩
  · exact absurd he hne

theorem activeOwner_iff (h : Provisioned f f' d) (e : Station) :
    f'.ActiveOwner e ↔ f.ActiveOwner e := by
  unfold Fleet.ActiveOwner
  rw [h.accounts_eq]

theorem peersBelong (h : Provisioned f f' d) (hwf' : f'.Wf)
    (hP : f.PeersBelongToActiveAccounts) :
    f'.PeersBelongToActiveAccounts := by
  refine ⟨?_, ?_⟩
  · intro e he hpeer
    rw [h.activeOwner_iff]
    by_cases hne : e = d
    · subst hne
      exact h.owner
    · obtain ⟨hmem, hsame⟩ := h.other hwf' he hne
      exact hP.1 e hmem (by rwa [← hsame])
  · intro k hk
    rw [h.stations_eq]
    by_cases hkey : k = d.publicKey
    · exact ⟨d, by simp, hkey.symm⟩
    · rw [h.frame k hkey] at hk
      obtain ⟨e, he, hek⟩ := hP.2 k hk
      exact ⟨e, List.mem_append_left _ he, hek⟩

theorem idle (h : Provisioned f f' d) (hwf' : f'.Wf)
    (hP : f.IdleDevicesHaveNoPeer) :
    f'.IdleDevicesHaveNoPeer := by
  intro e he hidle
  have hne : e ≠ d := by
    rintro rfl
    exact hidle h.active
  obtain ⟨hmem, hsame⟩ := h.other hwf' he hne
  rw [hsame]
  exact hP e hmem hidle

theorem servedAll (h : Provisioned f f' d) (hwf' : f'.Wf)
    (hP : f.ActiveDevicesAreServed) :
    f'.ActiveDevicesAreServed := by
  intro e he hactive howner
  rw [h.activeOwner_iff] at howner
  by_cases hne : e = d
  · subst hne
    exact h.served
  · obtain ⟨hmem, hsame⟩ := h.other hwf' he hne
    unfold Fleet.Served
    rw [hsame]
    exact hP e hmem hactive howner

end Provisioned

/-- Exactly the peers of `ds` are installed again, each under its address. -/
def Installs (ds : List Station) (i i' : Interface) : Prop :=
  ∀ k, (i' k = i k ∧ k ∉ ds.map Station.publicKey) ∨
    ∃ d ∈ ds, d.publicKey = k ∧ ∃ keepalive, i' k = some ⟨d.address, none, keepalive⟩

/-- Exactly the peers of `ds` are dropped. -/
def Drops (ds : List Station) (i i' : Interface) : Prop :=
  ∀ k, i' k = if k ∈ ds.map Station.publicKey then none else i k

section Bulk

variable {i i' i'' : Interface} {d : Station} {ds : List Station}

theorem installs_nil (i : Interface) : Installs [] i i := fun _ => Or.inl ⟨rfl, by simp⟩

theorem drops_nil (i : Interface) : Drops [] i i := fun _ => by simp

/-- Installing one peer and then the others. -/
theorem installs_cons {keepalive : Nat}
    (h : Installs ds (i.addPeer d.publicKey ⟨d.address, none, keepalive⟩) i') :
    Installs (d :: ds) i i' := by
  intro k
  rcases h k with ⟨hsame, hnot⟩ | ⟨e, he, hek, hpeer⟩
  · by_cases hk : k = d.publicKey
    · right
      refine ⟨d, by simp, hk.symm, keepalive, ?_⟩
      rw [hsame, hk, Interface.addPeer_self]
    · left
      rw [hsame, Interface.addPeer_of_ne hk]
      exact ⟨rfl, by simp [hk, hnot]⟩
  · right
    exact ⟨e, List.mem_cons_of_mem _ he, hek, hpeer⟩

/-- Dropping one peer and then the others. -/
theorem drops_cons (h : Drops ds (i.removePeer d.publicKey) i') :
    Drops (d :: ds) i i' := by
  intro k
  rw [h k]
  by_cases hk : k = d.publicKey
  · subst hk
    simp
  · simp [hk, Interface.removePeer_of_ne hk]

/-- The peer of an installed device, when keys are unique. -/
theorem Installs.served {f' : Fleet} (h : Installs ds i f'.interface)
    (hnodup : (ds.map Station.publicKey).Nodup) (hd : d ∈ ds) :
    f'.Served d := by
  rcases h d.publicKey with ⟨_, hnot⟩ | ⟨e, he, hek, keepalive, hpeer⟩
  · exact absurd (List.mem_map_of_mem hd) hnot
  · obtain rfl : e = d := row_unique hnodup he hd hek
    exact ⟨_, hpeer, rfl⟩

end Bulk

end Api
end ZeroVpn
