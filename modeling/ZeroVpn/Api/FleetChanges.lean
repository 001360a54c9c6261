import ZeroVpn.Api.Operations

/-!
# How account changes act on the three statements

`Touch` and `Provisioned` reduce the three statements about the interface to
one device.  The lemmas here do the same for the changes that reach a whole
account or the whole fleet: a new status, a deletion, the quota sweep and the
start of the process.
-/

namespace ZeroVpn

open Library

namespace Api

open Db (Uuid UserStatus DeviceStatus)

section Bulk

variable {f : Fleet} {d : Station} {ds : List Station} {i i' : Interface} {k : String}

theorem Installs.of_not_mem (h : Installs ds i i') (hk : k ∉ ds.map Station.publicKey) :
    i' k = i k := by
  rcases h k with ⟨hsame, _⟩ | ⟨d, hd, hdk, _⟩
  · exact hsame
  · exact absurd (List.mem_map.mpr ⟨d, hd, hdk⟩) hk

theorem Drops.of_not_mem (h : Drops ds i i') (hk : k ∉ ds.map Station.publicKey) :
    i' k = i k := by
  rw [h k, if_neg hk]

/-- What is left after a removal was there before. -/
theorem Drops.remains (h : Drops ds i i') (hk : i' k ≠ none) :
    k ∉ ds.map Station.publicKey ∧ i k ≠ none := by
  by_cases hmem : k ∈ ds.map Station.publicKey
  · rw [h k, if_pos hmem] at hk
    exact absurd rfl hk
  · rw [h k, if_neg hmem] at hk
    exact ⟨hmem, hk⟩

/-- The key of a stored device is among those of some stored devices only if
the device is one of them. -/
theorem key_not_mem (hwf : f.Wf) (hds : ∀ e ∈ ds, e ∈ f.stations) (hd : d ∈ f.stations)
    (hnot : d ∉ ds) : d.publicKey ∉ ds.map Station.publicKey := by
  intro hkey
  obtain ⟨e, he, hek⟩ := List.mem_map.mp hkey
  have heq : e = d := row_unique hwf.stations_key (hds e he) hd hek
  exact hnot (heq ▸ he)

end Bulk

section Accounts

variable {f f' : Fleet} {userId : Uuid} {d : Station}

theorem mem_activeOf :
    d ∈ f.activeOf userId ↔ d ∈ f.stations ∧ d.userId = userId ∧ d.status = .active := by
  simp [Fleet.activeOf, List.mem_filter]

theorem mem_activeStations :
    d ∈ f.activeStations ↔ d ∈ f.stations ∧ d.status = .active := by
  simp [Fleet.activeStations, List.mem_filter]

theorem activeOf_stored (e : Station) (he : e ∈ f.activeOf userId) : e ∈ f.stations :=
  (mem_activeOf.mp he).1

theorem activeStations_stored (e : Station) (he : e ∈ f.activeStations) : e ∈ f.stations :=
  (mem_activeStations.mp he).1

theorem activeOf_keys_nodup (hwf : f.Wf) :
    ((f.activeOf userId).map Station.publicKey).Nodup :=
  hwf.stations_key.sublist (List.filter_sublist.map _)

theorem activeStations_keys_nodup (hwf : f.Wf) :
    (f.activeStations.map Station.publicKey).Nodup :=
  hwf.stations_key.sublist (List.filter_sublist.map _)

/-- An account other than the changed ones keeps its devices usable. -/
theorem activeOwner_of_other {p : Account → Bool} {g : Account → Account}
    (haccounts : f'.accounts = updateWhere p g f.accounts)
    (hp : ∀ a, p a = true → a.id = userId ∧ (g a).id = userId)
    (hd : d.userId ≠ userId) : f'.ActiveOwner d ↔ f.ActiveOwner d := by
  unfold Fleet.ActiveOwner
  rw [haccounts]
  constructor
  · rintro ⟨a', ha', haid, hactive⟩
    obtain ⟨a, ha, rfl⟩ := mem_updateWhere.mp ha'
    by_cases hpa : p a = true
    · rw [if_pos hpa, (hp a hpa).2] at haid
      exact absurd haid.symm hd
    · rw [if_neg hpa] at haid hactive
      exact ⟨a, ha, haid, hactive⟩
  · rintro ⟨a, ha, haid, hactive⟩
    have hpa : p a = false := by
      by_contra hne
      have hpos : p a = true := by
        simpa using hne
      exact hd (haid.symm.trans (hp a hpos).1)
    exact ⟨a, mem_updateWhere_of_not ha hpa, haid, hactive⟩

end Accounts

namespace StatusChanged

variable {f f' : Fleet} {a : Account} {status : UserStatus} {d : Station}

theorem activeOwner_other (h : StatusChanged f f' a status) (hd : d.userId ≠ a.id) :
    f'.ActiveOwner d ↔ f.ActiveOwner d := by
  refine activeOwner_of_other h.accounts_eq ?_ hd
  intro b hb
  exact ⟨eq_of_beq hb, rfl⟩

/-- The devices of the changed account are usable exactly when it is active
now. -/
theorem activeOwner_self (h : StatusChanged f f' a status) (hd : d.userId = a.id) :
    f'.ActiveOwner d ↔ status = .active := by
  unfold Fleet.ActiveOwner
  rw [h.accounts_eq]
  constructor
  · rintro ⟨b', hb', hbid, hactive⟩
    obtain ⟨b, hb, rfl⟩ := mem_updateWhere.mp hb'
    by_cases hp : (b.id == a.id) = true
    · rw [if_pos hp] at hactive
      simp only [Account.active, Bool.and_eq_true, beq_iff_eq] at hactive
      exact hactive.1
    · rw [if_neg hp] at hbid
      exact absurd (by simpa [hd] using hbid) hp
  · intro hactive
    refine ⟨{ a with status := status }, ?_, hd.symm, ?_⟩
    · exact mem_updateWhere_of_pos (p := fun b => b.id == a.id)
        (f := fun _ => { a with status := status }) h.mem (by simp)
    · simp [Account.active, hactive, h.present]

/-- Before the change, too, they were usable exactly when it was active. -/
theorem activeOwner_before (h : StatusChanged f f' a status) (hwf : f.Wf)
    (hd : d.userId = a.id) : f.ActiveOwner d ↔ a.status = .active := by
  constructor
  · rintro ⟨b, hb, hbid, hactive⟩
    have heq : b = a := row_unique hwf.accounts_id hb h.mem (hbid.trans hd)
    simp only [Account.active, Bool.and_eq_true, beq_iff_eq] at hactive
    rw [← heq]
    exact hactive.1
  · intro hactive
    exact ⟨a, h.mem, hd.symm, by simp [Account.active, hactive, h.present]⟩

/-- The peers of other accounts stay as they are. -/
theorem interface_other (h : StatusChanged f f' a status) (hwf : f.Wf)
    (hd : d ∈ f.stations) (hother : d.userId ≠ a.id) :
    f'.interface d.publicKey = f.interface d.publicKey := by
  have hkey : d.publicKey ∉ (f.activeOf a.id).map Station.publicKey := by
    refine key_not_mem hwf activeOf_stored hd ?_
    intro hmem
    exact hother (mem_activeOf.mp hmem).2.1
  have hsynced := h.synced
  unfold SyncedPeers at hsynced
  split at hsynced
  · exact Drops.of_not_mem hsynced hkey
  · split at hsynced
    · exact Installs.of_not_mem hsynced hkey
    · rw [hsynced]

/-- A status change installs peers of active devices only. -/
theorem idle (h : StatusChanged f f' a status) (hwf : f.Wf)
    (hP : f.IdleDevicesHaveNoPeer) : f'.IdleDevicesHaveNoPeer := by
  intro d hd hidle
  rw [h.stations_eq] at hd
  have hkey : d.publicKey ∉ (f.activeOf a.id).map Station.publicKey := by
    refine key_not_mem hwf activeOf_stored hd ?_
    intro hmem
    exact hidle (mem_activeOf.mp hmem).2.2
  have hbefore := hP d hd hidle
  have hsynced := h.synced
  unfold SyncedPeers at hsynced
  split at hsynced
  · rw [Drops.of_not_mem hsynced hkey, hbefore]
  · split at hsynced
    · rw [Installs.of_not_mem hsynced hkey, hbefore]
    · rw [hsynced, hbefore]

/-- Every peer after the change belongs to a stored device. -/
theorem stored (h : StatusChanged f f' a status)
    (hP : ∀ k, f.interface k ≠ none → ∃ d ∈ f.stations, d.publicKey = k) :
    ∀ k, f'.interface k ≠ none → ∃ d ∈ f'.stations, d.publicKey = k := by
  intro k hk
  rw [h.stations_eq]
  have hsynced := h.synced
  unfold SyncedPeers at hsynced
  split at hsynced
  · exact hP k (Drops.remains hsynced hk).2
  · split at hsynced
    · rcases hsynced k with ⟨hsame, _⟩ | ⟨d, hd, hdk, _⟩
      · exact hP k (by rwa [hsame] at hk)
      · exact ⟨d, activeOf_stored d hd, hdk⟩
    · rw [hsynced] at hk
      exact hP k hk

/-- Peers of the changed account remain only while it is active, provided that
a suspension finds no peer of an idle device and a deletion no peer at all. -/
theorem self_active (h : StatusChanged f f' a status) (hwf : f.Wf)
    (hP : f.PeersBelongToActiveAccounts)
    (hsuspend : status = .suspended → ∀ d ∈ f.stations, d.userId = a.id →
      f.interface d.publicKey ≠ none → d.status = .active)
    (hdelete : status = .deleted → ∀ d ∈ f.stations, d.userId = a.id →
      f.interface d.publicKey = none)
    (hd : d ∈ f.stations) (hself : d.userId = a.id) (hpeer : f'.interface d.publicKey ≠ none) :
    status = .active := by
  have hsynced := h.synced
  unfold SyncedPeers at hsynced
  cases status with
  | active =>
      rfl
  | pendingVerification =>
      exact absurd rfl h.allowed
  | deleted =>
      rw [if_neg (by simp), if_neg (by simp)] at hsynced
      rw [hsynced] at hpeer
      exact absurd (hdelete rfl d hd hself) hpeer
  | suspended =>
      by_cases hprior : a.status = .suspended
      · rw [if_neg (by simp [hprior]), if_neg (by simp)] at hsynced
        rw [hsynced] at hpeer
        have hactive := (h.activeOwner_before hwf hself).mp (hP.1 d hd hpeer)
        rw [hprior] at hactive
        cases hactive
      · rw [if_pos ⟨rfl, hprior⟩] at hsynced
        obtain ⟨hkey, hbefore⟩ := Drops.remains hsynced hpeer
        have hactive := hsuspend rfl d hd hself hbefore
        exact absurd (List.mem_map_of_mem (mem_activeOf.mpr ⟨hd, hself, hactive⟩)) hkey

theorem peersBelong (h : StatusChanged f f' a status) (hwf : f.Wf)
    (hP : f.PeersBelongToActiveAccounts)
    (hsuspend : status = .suspended → ∀ d ∈ f.stations, d.userId = a.id →
      f.interface d.publicKey ≠ none → d.status = .active)
    (hdelete : status = .deleted → ∀ d ∈ f.stations, d.userId = a.id →
      f.interface d.publicKey = none) :
    f'.PeersBelongToActiveAccounts := by
  refine ⟨?_, h.stored hP.2⟩
  intro d hd hpeer
  rw [h.stations_eq] at hd
  by_cases hself : d.userId = a.id
  · rw [h.activeOwner_self hself]
    exact h.self_active hwf hP hsuspend hdelete hd hself hpeer
  · rw [h.activeOwner_other hself]
    rw [h.interface_other hwf hd hself] at hpeer
    exact hP.1 d hd hpeer

/-- Devices that become usable are served, provided that a re-activation of a
deleted account finds them served. -/
theorem servedAll (h : StatusChanged f f' a status) (hwf : f.Wf)
    (hP : f.ActiveDevicesAreServed)
    (hrevive : status = .active → a.status = .deleted →
      ∀ d ∈ f.stations, d.userId = a.id → d.status = .active → f.Served d) :
    f'.ActiveDevicesAreServed := by
  intro d hd hactive howner
  rw [h.stations_eq] at hd
  by_cases hself : d.userId = a.id
  · have hnow := (h.activeOwner_self hself).mp howner
    have hsynced := h.synced
    unfold SyncedPeers at hsynced
    rw [if_neg (by simp [hnow])] at hsynced
    by_cases hprior : a.status = .suspended
    · rw [if_pos ⟨hnow, hprior⟩] at hsynced
      exact Installs.served hsynced (activeOf_keys_nodup hwf)
        (mem_activeOf.mpr ⟨hd, hself, hactive⟩)
    · rw [if_neg (by simp [hprior])] at hsynced
      have hbefore : f.Served d := by
        cases hstatus : a.status with
        | active =>
            exact hP d hd hactive ((h.activeOwner_before hwf hself).mpr hstatus)
        | suspended =>
            exact absurd hstatus hprior
        | deleted =>
            exact hrevive hnow hstatus d hd hself hactive
        | pendingVerification =>
            exact absurd hstatus h.verified
      unfold Fleet.Served at hbefore ⊢
      rw [hsynced]
      exact hbefore
  · rw [h.activeOwner_other hself] at howner
    unfold Fleet.Served
    rw [h.interface_other hwf hd hself]
    exact hP d hd hactive howner

end StatusChanged

namespace Erased

variable {f f' : Fleet} {userId : Uuid} {d : Station}

theorem mem_iff (h : Erased f f' userId) :
    d ∈ f'.stations ↔ d ∈ f.stations ∧ d.userId ≠ userId := by
  rw [h.stations_eq]
  simp [List.mem_filter]

/-- The other accounts are as before. -/
theorem activeOwner_iff (h : Erased f f' userId) (hd : d.userId ≠ userId) :
    f'.ActiveOwner d ↔ f.ActiveOwner d := by
  unfold Fleet.ActiveOwner
  rw [h.accounts_eq]
  constructor
  · rintro ⟨a, ha, haid, hactive⟩
    exact ⟨a, (List.mem_filter.mp ha).1, haid, hactive⟩
  · rintro ⟨a, ha, haid, hactive⟩
    refine ⟨a, List.mem_filter.mpr ⟨ha, ?_⟩, haid, hactive⟩
    simpa [haid] using hd

/-- The peers of other accounts stay as they are. -/
theorem interface_other (h : Erased f f' userId) (hwf : f.Wf) (hd : d ∈ f.stations)
    (hother : d.userId ≠ userId) :
    f'.interface d.publicKey = f.interface d.publicKey := by
  refine Drops.of_not_mem h.dropped (key_not_mem hwf activeOf_stored hd ?_)
  intro hmem
  exact hother (mem_activeOf.mp hmem).2.1

theorem idle (h : Erased f f' userId) (hwf : f.Wf) (hP : f.IdleDevicesHaveNoPeer) :
    f'.IdleDevicesHaveNoPeer := by
  intro d hd hidle
  obtain ⟨hmem, hother⟩ := h.mem_iff.mp hd
  rw [h.interface_other hwf hmem hother]
  exact hP d hmem hidle

/-- No peer of the erased account is left, provided that it had none of an
idle device. -/
theorem peersBelong (h : Erased f f' userId) (hwf : f.Wf)
    (hP : f.PeersBelongToActiveAccounts)
    (hidle : ∀ d ∈ f.stations, d.userId = userId →
      f.interface d.publicKey ≠ none → d.status = .active) :
    f'.PeersBelongToActiveAccounts := by
  constructor
  · intro d hd hpeer
    obtain ⟨hmem, hother⟩ := h.mem_iff.mp hd
    rw [h.activeOwner_iff hother]
    rw [h.interface_other hwf hmem hother] at hpeer
    exact hP.1 d hmem hpeer
  · intro k hk
    obtain ⟨hkey, hbefore⟩ := Drops.remains h.dropped hk
    obtain ⟨d, hd, rfl⟩ := hP.2 k hbefore
    refine ⟨d, h.mem_iff.mpr ⟨hd, ?_⟩, rfl⟩
    intro hself
    have hactive := hidle d hd hself hbefore
    exact hkey (List.mem_map_of_mem (mem_activeOf.mpr ⟨hd, hself, hactive⟩))

theorem servedAll (h : Erased f f' userId) (hwf : f.Wf) (hP : f.ActiveDevicesAreServed) :
    f'.ActiveDevicesAreServed := by
  intro d hd hactive howner
  obtain ⟨hmem, hother⟩ := h.mem_iff.mp hd
  rw [h.activeOwner_iff hother] at howner
  unfold Fleet.Served
  rw [h.interface_other hwf hmem hother]
  exact hP d hmem hactive howner

end Erased

namespace SoftDeleted

variable {f f' : Fleet} {userId : Uuid} {d : Station}

theorem activeOwner_other (h : SoftDeleted f f' userId) (hd : d.userId ≠ userId) :
    f'.ActiveOwner d ↔ f.ActiveOwner d := by
  refine activeOwner_of_other h.accounts_eq ?_ hd
  intro a ha
  exact ⟨eq_of_beq ha, eq_of_beq ha⟩

/-- A stored device is one of another account, or a device of the deleted one
that is revoked now. -/
theorem mem_cases (h : SoftDeleted f f' userId) (hd : d ∈ f'.stations) :
    (d ∈ f.stations ∧ d.userId ≠ userId) ∨
      ∃ e ∈ f.stations, e.userId = userId ∧ d = { e with status := .revoked } := by
  rw [h.stations_eq, mem_updateWhere] at hd
  obtain ⟨e, he, rfl⟩ := hd
  by_cases hself : e.userId = userId
  · right
    exact ⟨e, he, hself, by simp [hself]⟩
  · left
    simpa [hself] using he

/-- Provided that the deleted account had no peer. -/
theorem idle (h : SoftDeleted f f' userId) (hP : f.IdleDevicesHaveNoPeer)
    (hquiet : ∀ d ∈ f.stations, d.userId = userId → f.interface d.publicKey = none) :
    f'.IdleDevicesHaveNoPeer := by
  intro d hd hidle
  rw [h.interface_eq]
  rcases h.mem_cases hd with ⟨hmem, _⟩ | ⟨e, he, hself, rfl⟩
  · exact hP d hmem hidle
  · exact hquiet e he hself

theorem peersBelong (h : SoftDeleted f f' userId) (hP : f.PeersBelongToActiveAccounts)
    (hquiet : ∀ d ∈ f.stations, d.userId = userId → f.interface d.publicKey = none) :
    f'.PeersBelongToActiveAccounts := by
  constructor
  · intro d hd hpeer
    rw [h.interface_eq] at hpeer
    rcases h.mem_cases hd with ⟨hmem, hother⟩ | ⟨e, he, hself, rfl⟩
    · rw [h.activeOwner_other hother]
      exact hP.1 d hmem hpeer
    · exact absurd (hquiet e he hself) hpeer
  · intro k hk
    rw [h.interface_eq] at hk
    obtain ⟨d, hd, rfl⟩ := hP.2 k hk
    have hother : d.userId ≠ userId := by
      intro hself
      exact hk (hquiet d hd hself)
    refine ⟨d, ?_, rfl⟩
    rw [h.stations_eq]
    exact mem_updateWhere_of_not hd (by simpa using hother)

theorem servedAll (h : SoftDeleted f f' userId) (hP : f.ActiveDevicesAreServed) :
    f'.ActiveDevicesAreServed := by
  intro d hd hactive howner
  unfold Fleet.Served
  rw [h.interface_eq]
  rcases h.mem_cases hd with ⟨hmem, hother⟩ | ⟨e, _, _, rfl⟩
  · rw [h.activeOwner_other hother] at howner
    exact hP d hmem hactive howner
  · cases hactive

end SoftDeleted

namespace Settled

variable {f f' : Fleet} {d : Station} {status : DeviceStatus}

theorem idle (h : Settled f f' d status) (hwf : f.Wf) (hwf' : f'.Wf)
    (hP : f.IdleDevicesHaveNoPeer) : f'.IdleDevicesHaveNoPeer :=
  h.touch.idle hwf hwf' hP h.dropped

/-- A device may be resumed only for an active account. -/
theorem peersBelong (h : Settled f f' d status) (hwf : f.Wf) (hwf' : f'.Wf)
    (hP : f.PeersBelongToActiveAccounts) (howner : status = .active → f.ActiveOwner d) :
    f'.PeersBelongToActiveAccounts := by
  refine h.touch.peersBelong hwf hwf' hP ?_
  intro hpeer
  by_cases hactive : status = .active
  · exact howner hactive
  · exact absurd (h.dropped hactive) hpeer

theorem servedAll (h : Settled f f' d status) (hwf : f.Wf) (hwf' : f'.Wf)
    (hP : f.ActiveDevicesAreServed) : f'.ActiveDevicesAreServed :=
  h.touch.served hwf hwf' hP (fun hactive _ => h.served hactive)

end Settled

section Sweep

variable {s t : Sys}

theorem SweepStep.peersBelong (h : SweepStep s.fleet t.fleet)
    (hP : s.fleet.PeersBelongToActiveAccounts) : t.fleet.PeersBelongToActiveAccounts := by
  cases h with
  | resume d howner hsettled =>
      exact hsettled.peersBelong s.fleet_wf t.fleet_wf hP (fun _ => howner)
  | pause d hsettled =>
      exact hsettled.peersBelong s.fleet_wf t.fleet_wf hP (fun h => by cases h)

theorem SweepStep.idle (h : SweepStep s.fleet t.fleet)
    (hP : s.fleet.IdleDevicesHaveNoPeer) : t.fleet.IdleDevicesHaveNoPeer := by
  cases h with
  | resume d _ hsettled =>
      exact hsettled.idle s.fleet_wf t.fleet_wf hP
  | pause d hsettled =>
      exact hsettled.idle s.fleet_wf t.fleet_wf hP

theorem SweepStep.servedAll (h : SweepStep s.fleet t.fleet)
    (hP : s.fleet.ActiveDevicesAreServed) : t.fleet.ActiveDevicesAreServed := by
  cases h with
  | resume d _ hsettled =>
      exact hsettled.servedAll s.fleet_wf t.fleet_wf hP
  | pause d hsettled =>
      exact hsettled.servedAll s.fleet_wf t.fleet_wf hP

/-- What every step of the sweep keeps, the whole sweep keeps. -/
theorem Swept.preserves {P : Fleet → Prop}
    (hstep : ∀ s t : Sys, SweepStep s.fleet t.fleet → P s.fleet → P t.fleet)
    (h : Swept s t) (hs : P s.fleet) : P t.fleet := by
  induction h with
  | refl hfleet =>
      rw [hfleet]
      exact hs
  | step _ hlast ih =>
      exact hstep _ _ hlast ih

end Sweep

namespace Rebooted

variable {cfg : Bootstrap.Config} {s t : Sys}

/-- The interface on which the start of the process begins to install peers. -/
def firstInterface (s : Sys) : Interface :=
  if s.up then s.interface else Interface.empty

theorem firstInterface_peer {k : String} (h : firstInterface s k ≠ none) :
    s.interface k ≠ none := by
  unfold firstInterface at h
  split at h
  · exact h
  · exact absurd rfl h

theorem idle (h : Rebooted cfg s t) (hP : s.fleet.IdleDevicesHaveNoPeer) :
    t.fleet.IdleDevicesHaveNoPeer := by
  intro d hd hidle
  rw [h.stations_eq] at hd
  have hkey : d.publicKey ∉ s.fleet.activeStations.map Station.publicKey := by
    refine key_not_mem s.fleet_wf activeStations_stored hd ?_
    intro hmem
    exact hidle (mem_activeStations.mp hmem).2
  have hsame := Installs.of_not_mem h.installed hkey
  by_contra hpeer
  refine firstInterface_peer (s := s) (k := d.publicKey) ?_ (hP d hd hidle)
  rw [firstInterface, ← hsame]
  exact hpeer

/-- The bootstrap administrator is the only account that changes, and it
becomes active. -/
theorem activeOwner_mono (h : Rebooted cfg s t) {d : Station}
    (howner : s.fleet.ActiveOwner d) : t.fleet.ActiveOwner d := by
  obtain ⟨a, ha, haid, hactive⟩ := howner
  have haccounts : ∃ b ∈ bootAccounts cfg s.db, b.id = a.id ∧ b.active = true := by
    unfold bootAccounts
    split
    · split
      · rename_i user _
        by_cases hpromoted : (a.id == user.id) = true
        · refine ⟨{ a with status := .active }, ?_, rfl, ?_⟩
          · exact mem_updateWhere_of_pos (p := fun b => b.id == user.id)
              (f := fun b => { b with status := .active }) ha hpromoted
          · simp only [Account.active, Bool.and_eq_true] at hactive ⊢
            exact ⟨by simp, hactive.2⟩
        · refine ⟨a, mem_updateWhere_of_not ha ?_, rfl, hactive⟩
          simpa using hpromoted
      · exact ⟨a, List.mem_append_left _ ha, rfl, hactive⟩
    · exact ⟨a, ha, rfl, hactive⟩
  obtain ⟨b, hb, hbid, hbactive⟩ := haccounts
  refine ⟨b, ?_, hbid.trans haid, hbactive⟩
  rw [h.accounts_eq]
  exact hb

/-- Provided that every active device belongs to an active account. -/
theorem peersBelong (h : Rebooted cfg s t) (hP : s.fleet.PeersBelongToActiveAccounts)
    (howners : ∀ d ∈ s.fleet.stations, d.status = .active →
      ∃ a ∈ bootAccounts cfg s.db, a.id = d.userId ∧ a.active = true) :
    t.fleet.PeersBelongToActiveAccounts := by
  constructor
  · intro d hd hpeer
    rw [h.stations_eq] at hd
    by_cases hactive : d.status = .active
    · unfold Fleet.ActiveOwner
      rw [h.accounts_eq]
      exact howners d hd hactive
    · refine h.activeOwner_mono (hP.1 d hd (firstInterface_peer ?_))
      have hkey : d.publicKey ∉ s.fleet.activeStations.map Station.publicKey := by
        refine key_not_mem s.fleet_wf activeStations_stored hd ?_
        intro hmem
        exact hactive (mem_activeStations.mp hmem).2
      rw [firstInterface, ← Installs.of_not_mem h.installed hkey]
      exact hpeer
  · intro k hk
    rw [h.stations_eq]
    rcases h.installed k with ⟨hsame, _⟩ | ⟨d, hd, hdk, _⟩
    · refine hP.2 k (firstInterface_peer ?_)
      rw [firstInterface, ← hsame]
      exact hk
    · exact ⟨d, activeStations_stored d hd, hdk⟩

/-- Every active device is installed again. -/
theorem servedAll (h : Rebooted cfg s t) : t.fleet.ActiveDevicesAreServed := by
  intro d hd hactive _
  rw [h.stations_eq] at hd
  exact Installs.served h.installed (activeStations_keys_nodup s.fleet_wf)
    (mem_activeStations.mpr ⟨hd, hactive⟩)

end Rebooted

end Api
end ZeroVpn
