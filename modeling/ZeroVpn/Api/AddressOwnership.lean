import ZeroVpn.Api.AddressRequests

/-!
# Addresses under every interleaving

Every request owns at most one address in flight, and the addresses of the
devices that it has taken out of use itself and has still to give back; `Owned`
says that no address has two owners.

A request comes to own the address of a device by the statement that takes the
device out of use, so it must find the device in use: `teardown_device` does not
look whether the device is already revoked, and `delete_user` gives back what it
listed before the deletion.  `delete_account` lists the devices after it revoked
them, and a device that was stored in between is still in use.  `KeepsApart`
excludes these cases, and `live_addresses_stay_allocated` says that nothing else
frees the address of a live device.
-/

namespace ZeroVpn

open Library
open Library.Attempt (Issues issues_bind issues_pure issues_lift)

namespace Api

open Db (Uuid Device Server DbError)
open Wg (IpAddr IpAllocator)

/-- The requests of the API and the starts of the process, over the shared state. -/
abbrev AddressPool := Pool Sys Op ApiCmd ApiCmd.Reply (Except ApiError Unit)

/-- The call deletes the account, with the devices that were listed. -/
def purges (userId : Uuid) : ApiCmd → Bool
  | .sql (.hardDelete u) => u == userId
  | _ => false

/-- The calls of `delete_account` between the revocation of the devices and their listing. -/
def closes (userId : Uuid) : Op → ApiCmd → Bool
  | .deleteAccount .., .audit _ target => target == some userId
  | .deleteAccount .., .sql (.listForUser u) => u == userId
  | _, _ => false

/-- No other `delete_user` of the account stands between its listing and its deletion. -/
def NoOtherPurge (p : AddressPool) (i : Nat) (userId : Uuid) : Prop :=
  ∀ j < p.threads.length, j ≠ i → (nextCall p j).all (fun x => !purges userId x.2) = true

/-- No `delete_account` of the account stands between its revocations and its listing. -/
def NotClosing (p : AddressPool) (userId : Uuid) : Prop :=
  ∀ j < p.threads.length, (nextCall p j).all (fun x => !closes userId x.1 x.2) = true

/-- The device of a revocation is still in use. -/
def StillLive (db : Db) (userId deviceId : Uuid) : Prop :=
  ∀ d ∈ db.devices, Db.Devices.owned userId deviceId d = true → d.live = true

instance (p : AddressPool) (i : Nat) (userId : Uuid) : Decidable (NoOtherPurge p i userId) :=
  inferInstanceAs (Decidable (∀ j < p.threads.length, _ → _))

instance (p : AddressPool) (userId : Uuid) : Decidable (NotClosing p userId) :=
  inferInstanceAs (Decidable (∀ j < p.threads.length, _))

instance (db : Db) (userId deviceId : Uuid) : Decidable (StillLive db userId deviceId) :=
  inferInstanceAs (Decidable (∀ d ∈ db.devices, _ → _))

/-- What a successful statement of request `i` must meet: a revocation finds the device in use,
no revocation and no other deletion comes between the listing and the deletion of
`delete_user`, and no device is stored between the revocations and the listing of
`delete_account`. -/
def StatementKeepsApart (p : AddressPool) (i : Nat) : DbCall → Prop
  | .setStatus userId deviceId _ => StillLive p.shared.db userId deviceId ∧ NoOtherPurge p i userId
  | .softDelete userId _ => NoOtherPurge p i userId
  | .hardDelete userId => NoOtherPurge p i userId
  | .createDevice _ new => NotClosing p new.userId
  | _ => True

def CallKeepsApart (p : AddressPool) (i : Nat) : ApiCmd → Prop
  | .sql q => StatementKeepsApart p i q
  | _ => True

instance (p : AddressPool) (i : Nat) (q : DbCall) : Decidable (StatementKeepsApart p i q) := by
  unfold StatementKeepsApart
  split <;> infer_instance

instance (p : AddressPool) (i : Nat) (c : ApiCmd) : Decidable (CallKeepsApart p i c) := by
  unfold CallKeepsApart
  split <;> infer_instance

/-- The condition on one event of a run. -/
def KeepsApart (p : AddressPool) : PoolEvent Op (Bootstrap.Config × List Bool) → Prop
  | .spawn op => op.movesAddresses = true
  | .step i ok => ok = true → ∀ op c, nextCall p i = some (op, c) → CallKeepsApart p i c
  | _ => True

instance (p : AddressPool) : (e : PoolEvent Op (Bootstrap.Config × List Bool)) →
    Decidable (KeepsApart p e)
  | .spawn op => inferInstanceAs (Decidable (op.movesAddresses = true))
  | .step _ false => .isTrue fun h => absurd h Bool.false_ne_true
  | .step i true =>
      match h : nextCall p i with
      | none => .isTrue (by
          intro _ op c hc
          rw [h] at hc
          cases hc)
      | some (op, c) => decidable_of_iff (CallKeepsApart p i c) (by
          constructor
          · intro hcond _ op' c' hc
            rw [h] at hc
            cases hc
            exact hcond
          · intro hmeets
            exact hmeets rfl op c h)
  | .crash _ => .isTrue trivial
  | .restart _ => .isTrue trivial

/-- The note of a request. -/
structure AddressNote where
  /-- The address in flight that it has still to store. -/
  flight : Option (Uuid × IpAddr)
  /-- The addresses of the devices that it has taken out of use. -/
  freed : List (Uuid × IpAddr)
  /-- The account that it is about to delete, with the addresses it listed. -/
  listed : Option (Uuid × List (Uuid × IpAddr))
  /-- The account whose devices it has revoked and is about to list. -/
  closed : Option Uuid
  /-- The owner, the identifier and the address of the device that it is about to
  revoke. -/
  found : Option (Uuid × Uuid × (Uuid × IpAddr))

namespace AddressNote

def idle : AddressNote := ⟨none, [], none, none, none⟩

/-- The note of a request that owns an address in flight. -/
def flying (x : Uuid × IpAddr) : AddressNote := ⟨some x, [], none, none, none⟩

/-- The note of a request that has addresses to give back. -/
def freeing (xs : List (Uuid × IpAddr)) : AddressNote := ⟨none, xs, none, none, none⟩

/-- The note of a request that has read the device it is about to revoke. -/
def reading (d : Device) : AddressNote := ⟨none, [], none, none, some (d.userId, d.id, placeOf d)⟩

/-- The note of a request that has listed the devices of the account it is about to delete. -/
def listing (userId : Uuid) (places : List (Uuid × IpAddr)) : AddressNote :=
  ⟨none, [], some (userId, places), none, none⟩

/-- The note of a request that has revoked the devices of an account. -/
def closing (userId : Uuid) : AddressNote := ⟨none, [], none, some userId, none⟩

/-- The request stands in no deletion of an account. -/
def Settled (m : AddressNote) : Prop := m.listed = none ∧ m.closed = none

end AddressNote

/-- A marked address that no live device has and no request is to store. -/
def Spare (s : Sys) (x : Uuid × IpAddr) : Prop :=
  (∀ a, s.allocators x.1 = some a → a.holds x.2 = true) ∧ Vacant s.db x ∧ x ∉ s.inFlight

/-- What the note of a request says is so. -/
structure Holds (s : Sys) (m : AddressNote) : Prop where
  flight : ∀ x, m.flight = some x → x ∈ s.inFlight
  freed : ∀ x ∈ m.freed, Spare s x
  nodup : m.freed.Nodup
  listed : ∀ userId places, m.listed = some (userId, places) →
    places.Nodup ∧ ∀ x ∈ places, ∃ d ∈ s.db.devices, d.live = true ∧ d.userId = userId ∧
      placeOf d = x
  closed : ∀ userId, m.closed = some userId → NoLiveDevice s.db userId
  found : ∀ x, m.found = some x → Remembered s.db x

/-- Two requests own different addresses. -/
structure Apart (m m' : AddressNote) : Prop where
  flight : ∀ x, m.flight = some x → m'.flight ≠ some x
  freed : ∀ x ∈ m.freed, x ∉ m'.freed

/-- No address has two owners, and what the requests have read is still there. -/
structure Owned (s : Sys) (μ : Nat → AddressNote) : Prop where
  addressed : Addressed s
  holds : ∀ i, Holds s (μ i)
  apart : ∀ i j, i ≠ j → Apart (μ i) (μ j)

/-- A request that stands in the deletion of an account goes on with it. -/
def SuitsDeletion (op : Op) (c : ApiCmd) (m : AddressNote) : Prop :=
  (∀ userId places, m.listed = some (userId, places) → purges userId c = true) ∧
    ∀ userId, m.closed = some userId → closes userId op c = true

/-- No other request is about to delete the account. -/
def OthersSpare (i : Nat) (userId : Uuid) (μ : Nat → AddressNote) : Prop :=
  ∀ j places, j ≠ i → (μ j).listed ≠ some (userId, places)

/-- The condition of a call, in terms of the notes. -/
def CallApart (i : Nat) (_ : Op) (c : ApiCmd) (ok : Bool) (s : Sys) (μ : Nat → AddressNote) :
    Prop :=
  ok = true →
    match c with
    | .sql (.setStatus userId deviceId _) =>
        StillLive s.db userId deviceId ∧ OthersSpare i userId μ
    | .sql (.softDelete userId _) => OthersSpare i userId μ
    | .sql (.hardDelete userId) => OthersSpare i userId μ
    | .sql (.createDevice _ new) => ∀ j, (μ j).closed ≠ some new.userId
    | _ => True

/-- A request with note `m` may run `p`, and ends with `Q`. -/
abbrev Runs {α : Type} (i : Nat) (op : Op) (Q : Except ApiError α → AddressNote → Prop)
    (p : Handler α) (m : AddressNote) : Prop :=
  Follows addressSystem Owned SuitsDeletion CallApart i op Q p.run m

section Notes

variable {s s' : Sys} {m m' m₀ : AddressNote}

theorem Apart.symm (h : Apart m m') : Apart m' m where
  flight x hx hx' := h.flight x hx' hx
  freed x hx hx' := h.freed x hx' hx

/-- A request that owns less stays apart from the others. -/
theorem Apart.shrink (h : Apart m₀ m') (hflight : ∀ x, m.flight = some x → m₀.flight = some x)
    (hfreed : m.freed ⊆ m₀.freed) : Apart m m' where
  flight x hx := h.flight x (hflight x hx)
  freed x hx := h.freed x (hfreed hx)

/-- A note without addresses. -/
theorem Apart.bare (hflight : m.flight = none) (hfreed : m.freed = []) : Apart m m' where
  flight x hx := by
    rw [hflight] at hx
    cases hx
  freed x hx := by
    rw [hfreed] at hx
    cases hx

theorem holds_flying {x : Uuid × IpAddr} (hx : x ∈ s.inFlight) : Holds s (.flying x) := by
  constructor
  case flight =>
    intro y hy
    cases hy
    exact hx
  case nodup => exact List.nodup_nil
  case listed =>
    intro _ _ hnone
    cases hnone
  all_goals
    intro _ hnone
    cases hnone

theorem holds_freeing {xs : List (Uuid × IpAddr)} (hnodup : xs.Nodup)
    (hfreed : ∀ x ∈ xs, Spare s x) : Holds s (.freeing xs) := by
  constructor
  case freed => exact hfreed
  case nodup => exact hnodup
  case listed =>
    intro _ _ hnone
    cases hnone
  all_goals
    intro _ hnone
    cases hnone

theorem holds_idle (s : Sys) : Holds s .idle := holds_freeing List.nodup_nil fun _ hx => by cases hx

theorem holds_reading {d : Device} (hd : d ∈ s.db.devices) : Holds s (.reading d) := by
  constructor
  case nodup => exact List.nodup_nil
  case found =>
    intro x hx
    cases hx
    exact Or.inl ⟨d, hd, rfl, rfl, rfl⟩
  case listed =>
    intro _ _ hnone
    cases hnone
  all_goals
    intro _ hnone
    cases hnone

theorem holds_listing {userId : Uuid} {places : List (Uuid × IpAddr)} (hnodup : places.Nodup)
    (hplaces : ∀ x ∈ places, ∃ d ∈ s.db.devices, d.live = true ∧ d.userId = userId ∧
      placeOf d = x) : Holds s (.listing userId places) := by
  constructor
  case nodup => exact List.nodup_nil
  case listed =>
    intro _ _ hm
    cases hm
    exact ⟨hnodup, hplaces⟩
  all_goals
    intro _ hnone
    cases hnone

theorem holds_closing {userId : Uuid} (hnone : NoLiveDevice s.db userId) :
    Holds s (.closing userId) := by
  constructor
  case nodup => exact List.nodup_nil
  case listed =>
    intro _ _ hm
    cases hm
  case closed =>
    intro _ hm
    cases hm
    exact hnone
  all_goals
    intro _ hm
    cases hm

/-- A change of the allocators. -/
theorem Holds.marks (h : Holds s m) (hdb : s'.db = s.db)
    (hflight : ∀ x, m.flight = some x → x ∈ s'.inFlight)
    (hfreed : ∀ x ∈ m.freed, Spare s' x) : Holds s' m where
  flight := hflight
  freed := hfreed
  nodup := h.nodup
  listed := by
    rw [hdb]
    exact h.listed
  closed := by
    rw [hdb]
    exact h.closed
  found := by
    rw [hdb]
    exact h.found

/-- A change of the rows that makes no device live and spares the listed ones. -/
theorem Holds.rows (h : Holds s m) (hallocators : s'.allocators = s.allocators)
    (hflight : s'.inFlight = s.inFlight)
    (hlive : ∀ d' ∈ s'.db.devices, d'.live = true →
      ∃ d ∈ s.db.devices, d.live = true ∧ d.userId = d'.userId ∧ placeOf d = placeOf d')
    (hlisted : ∀ userId places, m.listed = some (userId, places) →
      ∀ d ∈ s.db.devices, d.live = true → d.userId = userId → d ∈ s'.db.devices)
    (hread : ∀ x, Remembered s.db x → Remembered s'.db x) : Holds s' m where
  flight := by
    rw [hflight]
    exact h.flight
  freed := by
    intro x hx
    obtain ⟨hmarked, hvacant, hout⟩ := h.freed x hx
    refine ⟨hallocators ▸ hmarked, ?_, hflight ▸ hout⟩
    intro d' hd' hdlive hplace
    obtain ⟨d, hd, hold, _, hsame⟩ := hlive d' hd' hdlive
    exact hvacant d hd hold (hsame.trans hplace)
  nodup := h.nodup
  listed := by
    intro userId places hm
    obtain ⟨hnodup, hplaces⟩ := h.listed userId places hm
    refine ⟨hnodup, fun x hx => ?_⟩
    obtain ⟨d, hd, hdlive, huser, hplace⟩ := hplaces x hx
    exact ⟨d, hlisted userId places hm d hd hdlive huser, hdlive, huser, hplace⟩
  closed := by
    intro userId hm d' hd' huser
    by_contra hdlive
    rw [Bool.not_eq_false] at hdlive
    obtain ⟨d, hd, hold, hsame, _⟩ := hlive d' hd' hdlive
    rw [h.closed userId hm d hd (hsame.trans huser)] at hold
    cases hold
  found := fun x hx => hread x (h.found x hx)

/-- The rows that count are the same. -/
theorem Holds.same (h : Holds s m) (hallocators : s'.allocators = s.allocators)
    (hflight : s'.inFlight = s.inFlight)
    (hrows : s'.db.devices.map rowKey = s.db.devices.map rowKey)
    (husers : s'.db.users = s.db.users) : Holds s' m where
  flight := by
    rw [hflight]
    exact h.flight
  freed := by
    intro x hx
    obtain ⟨hmarked, hvacant, hout⟩ := h.freed x hx
    refine ⟨hallocators ▸ hmarked, ?_, hflight ▸ hout⟩
    intro d' hd' hdlive hplace
    obtain ⟨d, hd, hkey⟩ := rowKey_mem hrows.symm hd'
    simp only [rowKey, Prod.mk.injEq] at hkey
    exact hvacant d hd (hkey.2.2.2.trans hdlive) (hkey.2.2.1.trans hplace)
  nodup := h.nodup
  listed := by
    intro userId places hm
    obtain ⟨hnodup, hplaces⟩ := h.listed userId places hm
    refine ⟨hnodup, fun x hx => ?_⟩
    obtain ⟨d, hd, hdlive, huser, hplace⟩ := hplaces x hx
    obtain ⟨d', hd', hkey⟩ := rowKey_mem hrows hd
    simp only [rowKey, Prod.mk.injEq] at hkey
    exact ⟨d', hd', hkey.2.2.2.trans hdlive, hkey.2.1.trans huser, hkey.2.2.1.trans hplace⟩
  closed := by
    intro userId hm d' hd' huser
    obtain ⟨d, hd, hkey⟩ := rowKey_mem hrows.symm hd'
    simp only [rowKey, Prod.mk.injEq] at hkey
    rw [← hkey.2.2.2]
    exact h.closed userId hm d hd (hkey.2.1.trans huser)
  found := fun x hx => remembered_of_rowKey hrows husers (h.found x hx)

/-- Replacing an allocator by one that still has the mark. -/
theorem Spare.setAllocator {x : Uuid × IpAddr} (h : Spare s x) {v : Uuid} {a a' : IpAllocator}
    {flight : List (Uuid × IpAddr)} (ha : s.allocators v = some a)
    (hkeep : x.1 = v → a.holds x.2 = true → a'.holds x.2 = true) (hflight : x ∉ flight) :
    Spare { s.setAllocator v a' with inFlight := flight } x := by
  refine ⟨fun b hb => ?_, h.2.1, hflight⟩
  by_cases hv : x.1 = v
  · have hb' : a' = b := by
      simpa [Sys.setAllocator, hv] using hb
    rw [← hb']
    exact hkeep hv (h.1 a (hv ▸ ha))
  · refine h.1 b ?_
    simpa [Sys.setAllocator, Function.update_of_ne hv] using hb

end Notes

section Steps

variable {s : Sys} {μ : Nat → AddressNote} {i : Nat} {m : AddressNote}

/-- A call of one request; the others keep their notes. -/
theorem Owned.update (h : Owned s μ) {s' : Sys} (haddressed : Addressed s')
    (hothers : ∀ j, j ≠ i → Holds s' (μ j)) (hmine : Holds s' m)
    (hapart : ∀ j, j ≠ i → Apart m (μ j)) : Owned s' (Function.update μ i m) := by
  constructor
  case addressed => exact haddressed
  case holds =>
    intro j
    by_cases hji : j = i
    · rw [hji, Function.update_self]
      exact hmine
    · rw [Function.update_of_ne hji]
      exact hothers j hji
  case apart =>
    intro j k hjk
    by_cases hji : j = i
    · have hki : k ≠ i := fun hki => hjk (hji.trans hki.symm)
      rw [hji, Function.update_self, Function.update_of_ne hki]
      exact hapart k hki
    · rw [Function.update_of_ne hji]
      by_cases hki : k = i
      · rw [hki, Function.update_self]
        exact (hapart j hji).symm
      · rw [Function.update_of_ne hki]
        exact h.apart j k hjk

/-- Rewriting the note of a request that owns no address. -/
theorem Owned.note (h : Owned s μ) (hmine : Holds s m) (hflight : m.flight = none)
    (hfreed : m.freed = []) : Owned s (Function.update μ i m) :=
  h.update h.addressed (fun j _ => h.holds j) hmine fun _ _ => .bare hflight hfreed

/-- A call that changes what is said of no request. -/
theorem Owned.same (h : Owned s μ) {s' : Sys} (haddressed : Addressed s')
    (hholds : ∀ j, Holds s' (μ j)) : Owned s' μ :=
  ⟨haddressed, hholds, h.apart⟩

/-- A plain call. -/
theorem Owned.plain (h : Owned s μ) {c : ApiCmd} (hc : Plain c) (ok : Bool) :
    Owned (c.sem ok s).1 μ := by
  obtain ⟨haddressed, hflight, hallocators⟩ := h.addressed.harmless (harmless_of_plain hc) ok
  obtain ⟨_, hrows, husers⟩ := rows_of_plain hc ok s
  exact h.same haddressed fun j => (h.holds j).same hallocators hflight hrows husers

/-- A request takes an address. -/
theorem Owned.take (h : Owned s μ) {v : Uuid} {a a' : IpAllocator}
    {ip : IpAddr} (ha : s.allocators v = some a) (hnetwork : a'.network = a.network)
    (hfree : a.holds ip = false)
    (hholds : ∀ ip', a'.holds ip' = true ↔ a.holds ip' = true ∨ ip' = ip) :
    Owned { s.setAllocator v a' with inFlight := (v, ip) :: s.inFlight }
      (Function.update μ i (.flying (v, ip))) := by
  obtain ⟨haddressed, hnew⟩ := h.addressed.take ha hnetwork hfree hholds
  refine h.update haddressed (fun j _ => ?_) (holds_flying List.mem_cons_self) fun j _ => ?_
  · refine (h.holds j).marks rfl ?_ ?_
    · intro x hx
      exact List.mem_cons_of_mem _ ((h.holds j).flight x hx)
    · intro x hx
      have hspare := (h.holds j).freed x hx
      refine hspare.setAllocator ha (fun _ hold => (hholds _).mpr (Or.inl hold)) ?_
      intro hmem
      rcases List.mem_cons.mp hmem with rfl | hmem
      · rw [hspare.1 a ha] at hfree
        cases hfree
      · exact hspare.2.2 hmem
  · constructor
    · rintro x hx hx'
      cases hx
      exact hnew ((h.holds j).flight _ hx')
    · intro x hx
      cases hx

/-- An allocator that is asked and hands out nothing. -/
theorem Owned.refused (h : Owned s μ) {v : Uuid} {a a' : IpAllocator}
    (ha : s.allocators v = some a) (hnetwork : a'.network = a.network)
    (hholds : ∀ ip, a'.holds ip = a.holds ip) : Owned (s.setAllocator v a') μ := by
  refine h.same ?_ fun j => ?_
  · refine h.addressed.setAllocator (hnetwork ▸ h.addressed.network v a ha) ?_ ?_
      h.addressed.flight_nodup
    · intro d hd hlive hserver
      rw [hholds]
      exact h.addressed.sound d hd hlive a (hserver ▸ ha)
    · intro x hx
      refine Or.inl ⟨hx, fun hv => ?_⟩
      obtain ⟨b, hb, hbx⟩ := h.addressed.flight_held x hx
      rw [hv, ha] at hb
      cases hb
      rw [hholds]
      exact hbx
  · refine (h.holds j).marks rfl (h.holds j).flight fun x hx => ?_
    have hspare := (h.holds j).freed x hx
    exact hspare.setAllocator ha (fun _ hold => (hholds _).trans hold) hspare.2.2

/-- A request gives back an address that is its own. -/
theorem Owned.release (h : Owned s μ) {v : Uuid} {a : IpAllocator} {ip : IpAddr}
    {flight : List (Uuid × IpAddr)} (ha : s.allocators v = some a)
    (hvacant : Vacant s.db (v, ip)) (hsub : flight.Sublist s.inFlight) (hout : (v, ip) ∉ flight)
    (hothers : ∀ j, j ≠ i → (∀ x, (μ j).flight = some x → x ∈ flight) ∧ (v, ip) ∉ (μ j).freed)
    (hmine : ∀ x ∈ m.freed, x ∈ (μ i).freed ∧ x ≠ (v, ip))
    (hnote : m = .freeing m.freed) (hnodup : m.freed.Nodup) :
    Owned { s.setAllocator v (a.release ip).1 with inFlight := flight }
      (Function.update μ i m) := by
  have hspare : ∀ j, ∀ x ∈ (μ j).freed, x ≠ (v, ip) →
      Spare { s.setAllocator v (a.release ip).1 with inFlight := flight } x := by
    intro j x hx hne
    have hold := (h.holds j).freed x hx
    refine hold.setAllocator ha ?_ fun hmem => hold.2.2 (hsub.subset hmem)
    intro hv hmarked
    exact (a.release_spec ip).2 _ hmarked fun hip => hne (Prod.ext hv hip)
  refine h.update (h.addressed.release ha hvacant hsub hout) (fun j hj => ?_) ?_ fun j hj => ?_
  · refine (h.holds j).marks rfl (hothers j hj).1 fun x hx => hspare j x hx ?_
    rintro rfl
    exact (hothers j hj).2 hx
  · rw [hnote]
    exact holds_freeing hnodup fun x hx => hspare i x (hmine x hx).1 (hmine x hx).2
  · refine (h.apart i j (Ne.symm hj)).shrink ?_ fun x hx => (hmine x hx).1
    rw [hnote]
    intro x hx
    cases hx

/-- The address is stored. -/
theorem Owned.insert (h : Owned s μ) {db' : Db} (new : Device)
    (hi : (μ i).flight = some (placeOf new)) (hdevices : db'.devices = s.db.devices ++ [new])
    (hservers : db'.servers = s.db.servers) (husers : db'.users = s.db.users)
    (hclosed : ∀ j, (μ j).closed ≠ some new.userId) :
    Owned { s with db := db', inFlight := s.inFlight.erase (placeOf new) }
      (Function.update μ i .idle) := by
  have hin := (h.holds i).flight _ hi
  refine h.update (h.addressed.insert new hdevices hservers hin) (fun j hj => ?_) (holds_idle _)
    fun j _ => .bare rfl rfl
  constructor
  case flight =>
    intro x hx
    refine (List.mem_erase_of_ne ?_).mpr ((h.holds j).flight x hx)
    rintro rfl
    exact (h.apart j i hj).flight _ hx hi
  case freed =>
    intro x hx
    obtain ⟨hmarked, hvacant, hout⟩ := (h.holds j).freed x hx
    refine ⟨hmarked, ?_, fun hmem => hout (List.mem_of_mem_erase hmem)⟩
    intro d hd hlive
    rw [hdevices, List.mem_append, List.mem_singleton] at hd
    rcases hd with hd | rfl
    · exact hvacant d hd hlive
    · rintro rfl
      exact hout hin
  case nodup => exact (h.holds j).nodup
  case listed =>
    intro userId places hm
    obtain ⟨hnodup, hplaces⟩ := (h.holds j).listed userId places hm
    refine ⟨hnodup, fun x hx => ?_⟩
    obtain ⟨d, hd, hrow⟩ := hplaces x hx
    exact ⟨d, hdevices ▸ List.mem_append_left _ hd, hrow⟩
  case closed =>
    intro userId hm d hd huser
    rw [hdevices, List.mem_append, List.mem_singleton] at hd
    rcases hd with hd | rfl
    · exact (h.holds j).closed userId hm d hd huser
    · exact absurd (huser ▸ hm) (hclosed j)
  case found =>
    intro x hx
    rcases (h.holds j).found x hx with ⟨d, hd, hrow⟩ | hgone
    · exact Or.inl ⟨d, hdevices ▸ List.mem_append_left _ hd, hrow⟩
    · exact Or.inr (husers ▸ hgone)

/-- The address of a live device has no other owner. -/
theorem Owned.of_live (h : Owned s μ) {d : Device} (hd : d ∈ s.db.devices)
    (hlive : d.live = true) :
    (∀ a, s.allocators d.serverId = some a → a.holds d.allocatedIp = true) ∧
      placeOf d ∉ s.inFlight ∧ ∀ j, placeOf d ∉ (μ j).freed := by
  refine ⟨h.addressed.sound d hd hlive, ?_, ?_⟩
  · intro hmem
    exact h.addressed.flight_vacant _ hmem d hd hlive rfl
  · intro j hmem
    exact ((h.holds j).freed _ hmem).2.1 d hd hlive rfl

/-- Taking live devices out of use frees their addresses. -/
theorem Owned.free (h : Owned s μ) {db' : Db} {places : List (Uuid × IpAddr)}
    (haddressed : Addressed { s with db := db' }) (hnodup : places.Nodup)
    (hplaces : ∀ x ∈ places, Vacant db' x ∧ ∃ d ∈ s.db.devices, d.live = true ∧ placeOf d = x)
    (hothers : ∀ j, j ≠ i → Holds { s with db := db' } (μ j)) :
    Owned { s with db := db' } (Function.update μ i (.freeing places)) := by
  refine h.update haddressed hothers (holds_freeing hnodup fun x hx => ?_) fun j _ => ?_
  · obtain ⟨hvacant, d, hd, hlive, rfl⟩ := hplaces x hx
    obtain ⟨hmarked, hout, _⟩ := h.of_live hd hlive
    exact ⟨hmarked, hvacant, hout⟩
  · constructor
    · intro x hx
      cases hx
    · intro x hx
      obtain ⟨_, d, hd, hlive, rfl⟩ := hplaces x hx
      exact (h.of_live hd hlive).2.2 j

/-- A device in use is revoked, and its address is given back. -/
theorem Owned.revoke (h : Owned s μ) {db' : Db} {userId deviceId : Uuid} {place : Uuid × IpAddr}
    (haddressed : Addressed { s with db := db' })
    (hm : (μ i).found = some (userId, deviceId, place))
    (hdevices : db'.devices = updateWhere (Db.Devices.owned userId deviceId)
      (fun d => { d with status := .revoked }) s.db.devices)
    (husers : db'.users = s.db.users)
    (hrow : ∃ d ∈ s.db.devices, Db.Devices.owned userId deviceId d = true)
    (hlive : StillLive s.db userId deviceId) (hothers : OthersSpare i userId μ) :
    Owned { s with db := db' } (Function.update μ i (.freeing [place])) := by
  obtain ⟨d, hd, howned⟩ := hrow
  have hplace := owned_of_remembered ((h.holds i).found _ hm) hd howned
  refine h.free haddressed (List.nodup_singleton place) ?_ fun j hj => ?_
  · intro x hx
    rw [List.mem_singleton.mp hx]
    refine ⟨?_, d, hd, hlive d hd howned, hplace⟩
    intro e' he' helive heplace
    rw [hdevices, mem_updateWhere] at he'
    obtain ⟨e, he, rfl⟩ := he'
    by_cases heowned : Db.Devices.owned userId deviceId e = true
    · rw [if_pos heowned] at helive
      simp [Device.live] at helive
    · rw [if_neg heowned] at helive heplace
      obtain ⟨hserver, hip⟩ := Prod.mk.inj (heplace.trans hplace.symm)
      have hsame := s.db.address_unique he hd helive (hlive d hd howned) hserver hip
      exact heowned (hsame ▸ howned)
  · refine (h.holds j).rows rfl rfl (live_of_revoked hdevices) ?_ ?_
    · intro u places hlisted e he _ heuser
      dsimp only
      rw [hdevices]
      refine mem_updateWhere_of_not he ?_
      by_contra heowned
      rw [Bool.not_eq_false, Db.Devices.owned, Bool.and_eq_true, beq_iff_eq] at heowned
      rw [← heuser, heowned.1] at hlisted
      exact hothers j places hj hlisted
    · exact fun x hx => remembered_of_revoked hdevices (fun u hu => ⟨u, husers ▸ hu, rfl⟩) hx

/-- The devices of an account are revoked. -/
theorem Owned.softDelete (h : Owned s μ) {db' : Db} {userId : Uuid} {now : Int}
    (haddressed : Addressed { s with db := db' })
    (hrun : Db.Users.softDelete userId now s.db = .ok ((), db'))
    (hothers : OthersSpare i userId μ) :
    Owned { s with db := db' } (Function.update μ i (.closing userId)) := by
  have hdevices := (Db.Users.softDelete_eq_ok hrun).2
  refine h.update haddressed (fun j hj => ?_) (holds_closing ?_) fun j _ => .bare rfl rfl
  · refine (h.holds j).rows rfl rfl (live_of_revoked hdevices) ?_ ?_
    · intro u places hlisted e he _ heuser
      dsimp only
      rw [hdevices]
      refine mem_updateWhere_of_not he ?_
      rw [beq_eq_false_iff_ne]
      rintro rfl
      exact hothers j places hj (heuser ▸ hlisted)
    · exact fun x hx => remembered_of_revoked hdevices (users_of_softDelete hrun) hx
  · intro d hd huser
    dsimp only at hd
    rw [hdevices, mem_updateWhere] at hd
    obtain ⟨e, _, rfl⟩ := hd
    split
    · rfl
    · rename_i hne
      rw [if_neg hne] at huser
      exact absurd (beq_iff_eq.mpr huser) hne

/-- An account is deleted whose devices were listed. -/
theorem Owned.hardDelete (h : Owned s μ) {db' : Db} {userId : Uuid}
    {places : List (Uuid × IpAddr)} (haddressed : Addressed { s with db := db' })
    (hm : (μ i).listed = some (userId, places))
    (hrun : Db.Users.hardDelete userId s.db = .ok ((), db'))
    (hothers : OthersSpare i userId μ) :
    Owned { s with db := db' } (Function.update μ i (.freeing places)) := by
  have hdevices := (rows_of_hardDelete hrun).2
  obtain ⟨hnodup, hplaces⟩ := (h.holds i).listed userId places hm
  refine h.free haddressed hnodup (fun x hx => ?_) fun j hj => ?_
  · obtain ⟨d, hd, hlive, huser, rfl⟩ := hplaces x hx
    refine ⟨?_, d, hd, hlive, rfl⟩
    intro e he helive heplace
    rw [hdevices, List.mem_filter] at he
    obtain ⟨hserver, hip⟩ := Prod.mk.inj heplace
    have hsame := s.db.address_unique he.1 hd helive hlive hserver hip
    rw [hsame, huser] at he
    simp at he
  · refine (h.holds j).rows rfl rfl ?_ ?_ fun x hx => remembered_of_hardDelete hrun hx
    · intro d hd hlive
      dsimp only at hd
      rw [hdevices, List.mem_filter] at hd
      exact ⟨d, hd.1, hlive, rfl, rfl⟩
    · intro u places' hlisted e he _ heuser
      dsimp only
      rw [hdevices, List.mem_filter, bne_iff_ne]
      refine ⟨he, ?_⟩
      rintro rfl
      exact hothers j places' hj (heuser ▸ hlisted)

end Steps

section Requests

variable {i : Nat} {op : Op} {α β : Type} {m : AddressNote}

theorem suitsDeletion_of_settled {c : ApiCmd} (hm : m.Settled) : SuitsDeletion op c m := by
  constructor
  · intro userId places hlisted
    rw [hm.1] at hlisted
    cases hlisted
  · intro userId hclosed
    rw [hm.2] at hclosed
    cases hclosed

/-- Plain calls leave the note as it is. -/
theorem plain_runs {Q : Except ApiError α → AddressNote → Prop} {p : Handler α}
    (hp : Issues Plain p) (hm : m.Settled) (hQ : ∀ r, Q r m) : Runs i op Q p m := by
  refine follows_of_calls (P := Plain) ?_ ?_ hp hQ
  · intro c _
    exact suitsDeletion_of_settled hm
  · intro c s μ ok hc hs _
    exact hs.plain hc ok

/-- A sequence that starts with plain calls. -/
theorem plain_then {Q : Except ApiError β → AddressNote → Prop} {p : Handler α}
    {k : α → Handler β} (hp : Issues Plain p) (hm : m.Settled) (hk : ∀ a, Runs i op Q (k a) m)
    (herror : ∀ e, Q (.error e) m) : Runs i op Q (p >>= k) m := by
  refine Follows.attempt_bind (plain_runs (Q := fun _ m' => m' = m) hp hm fun _ => rfl) ?_ ?_
  · rintro a m' rfl
    exact hk a
  · rintro e m' rfl
    exact herror e

/-- A request that ends with nothing to do. -/
abbrev Ends (_ : Except ApiError α) (m : AddressNote) : Prop := m.Settled

/-- The address that was handed out is in flight. -/
def OwnsResult (v : Uuid) (r : Except ApiError IpAddr) (m : AddressNote) : Prop :=
  match r with
  | .ok ip => m = .flying (v, ip)
  | .error _ => m = .idle

theorem allocateAuto_runs (v : Uuid) :
    Runs i op (OwnsResult v) (Devices.allocateAuto v) .idle := by
  refine ⟨suitsDeletion_of_settled ⟨rfl, rfl⟩, ?_⟩
  intro s μ ok hI hi _
  cases ha : s.allocators v with
  | none =>
      refine ⟨.idle, ?_, ?_⟩
      · rw [← hi, Function.update_eq_self]
        simpa only [addressSystem, ApiCmd.sem, ha] using hI
      · simp only [addressSystem, ApiCmd.sem, ha]
        rfl
  | some a =>
      obtain ⟨hnetwork, ⟨ip, hip, hfree, hholds⟩ | ⟨hnone, hholds⟩⟩ := a.allocate_spec
      · have hpair : a.allocate = (a.allocate.1, some (.ok ip)) := Prod.ext rfl hip
        refine ⟨.flying (v, ip), ?_, ?_⟩
        · simp only [addressSystem, ApiCmd.sem, ha]
          rw [hpair]
          exact hI.take ha hnetwork hfree hholds
        · simp only [addressSystem, ApiCmd.sem, ha]
          rw [hpair]
          rfl
      · refine ⟨.idle, ?_, ?_⟩
        · rw [← hi, Function.update_eq_self]
          simp only [addressSystem, ApiCmd.sem, ha]
          exact hI.refused ha hnetwork hholds
        · simp only [addressSystem, ApiCmd.sem, ha]
          rcases hpair : a.allocate with ⟨a', _ | e | ip⟩
          · rfl
          · rfl
          · exact absurd (by rw [hpair]) (hnone ip)

theorem reserveSpecific_runs (v : Uuid) (raw : Option IpAddr) :
    Runs i op (OwnsResult v) (Devices.reserveSpecific v raw) .idle := by
  cases raw with
  | none =>
      rfl
  | some ip =>
      refine ⟨suitsDeletion_of_settled ⟨rfl, rfl⟩, ?_⟩
      intro s μ ok hI hi _
      cases ha : s.allocators v with
      | none =>
          refine ⟨.idle, ?_, ?_⟩
          · rw [← hi, Function.update_eq_self]
            simpa only [addressSystem, ApiCmd.sem, ha] using hI
          · simp only [addressSystem, ApiCmd.sem, ha]
            rfl
      | some a =>
          obtain ⟨hnetwork, ⟨hok, hfree, hholds⟩ | ⟨hnone, hsame⟩⟩ := a.tryReserve_spec ip
          · have hpair : a.tryReserve ip = ((a.tryReserve ip).1, .ok ()) := Prod.ext rfl hok
            refine ⟨.flying (v, ip), ?_, ?_⟩
            · simp only [addressSystem, ApiCmd.sem, ha]
              rw [hpair]
              exact hI.take ha hnetwork hfree hholds
            · simp only [addressSystem, ApiCmd.sem, ha]
              rw [hpair]
              rfl
          · obtain ⟨e, he⟩ : ∃ e, (a.tryReserve ip).2 = .error e := by
              cases hres : (a.tryReserve ip).2 with
              | error e =>
                  exact ⟨e, rfl⟩
              | ok u =>
                  exact absurd hres hnone
            have hpair : a.tryReserve ip = (a, .error e) := Prod.ext hsame he
            refine ⟨.idle, ?_, ?_⟩
            · rw [← hi, Function.update_eq_self]
              simp only [addressSystem, ApiCmd.sem, ha]
              rw [hpair]
              exact hI.refused ha rfl fun _ => rfl
            · simp only [addressSystem, ApiCmd.sem, ha]
              rw [hpair]
              cases e <;> rfl

theorem takeAddress_runs (v : Uuid) (requested : Option (Option IpAddr)) :
    Runs i op (OwnsResult v) (Devices.takeAddress v requested) .idle := by
  cases requested with
  | none =>
      exact allocateAuto_runs v
  | some raw =>
      exact reserveSpecific_runs v raw

/-- The address in flight becomes that of a row, unless the row is refused. -/
theorem storeDevice_runs (id : Uuid) (new : Db.Devices.NewDevice) :
    Runs i op
      (fun r m => match r with
        | .ok (.ok _) => m = .idle
        | .ok (.error _) => m = .flying (new.serverId, new.allocatedIp)
        | .error _ => False)
      (trySql (.createDevice id new)) (.flying (new.serverId, new.allocatedIp)) := by
  refine ⟨suitsDeletion_of_settled ⟨rfl, rfl⟩, ?_⟩
  intro s μ ok hI hi hcond
  cases ok with
  | false =>
      refine ⟨.flying (new.serverId, new.allocatedIp), ?_, rfl⟩
      rw [← hi, Function.update_eq_self]
      exact hI
  | true =>
      cases hrun : (DbCall.createDevice id new).run s.db with
      | error e =>
          refine ⟨.flying (new.serverId, new.allocatedIp), ?_, ?_⟩
          · rw [← hi, Function.update_eq_self]
            simpa only [addressSystem, ApiCmd.sem, hrun] using hI
          · simp only [addressSystem, ApiCmd.sem, hrun]
            rfl
      | ok out =>
          obtain ⟨_, db'⟩ := out
          have htables := (Db.write_return_eq_ok hrun).1
          refine ⟨.idle, ?_, ?_⟩
          · simp only [addressSystem, ApiCmd.sem, hrun]
            refine hI.insert (new.row id) ?_ ?_ ?_ ?_ (hcond rfl)
            · rw [hi]
              rfl
            · rw [htables]
            · rw [htables]
            · rw [htables]
          · simp only [addressSystem, ApiCmd.sem, hrun]
            rfl

/-- The address in flight is given back after the row was refused. -/
theorem releaseInFlight_runs (place : Uuid × IpAddr) :
    Runs i op (fun _ m => m = .idle) (call (.release .provision place.1 place.2))
      (.flying place) := by
  refine ⟨suitsDeletion_of_settled ⟨rfl, rfl⟩, ?_⟩
  intro s μ ok hI hi _
  have hown : (μ i).flight = some place := by
    rw [hi]
    rfl
  have hflight := (hI.holds i).flight _ hown
  obtain ⟨a, ha, _⟩ := hI.addressed.flight_held _ hflight
  refine ⟨.idle, ?_, rfl⟩
  simp only [addressSystem, ApiCmd.sem, ha, if_true]
  refine hI.release ha (hI.addressed.flight_vacant _ hflight) List.erase_sublist
    hI.addressed.flight_nodup.not_mem_erase (fun j hj => ⟨?_, ?_⟩)
    (fun _ hx => by cases hx) rfl List.nodup_nil
  · intro x hx
    refine (List.mem_erase_of_ne ?_).mpr ((hI.holds j).flight x hx)
    rintro rfl
    exact (hI.apart j i hj).flight _ hx hown
  · intro hmem
    exact ((hI.holds j).freed _ hmem).2.2 hflight

/-- A request stores the address that it has in flight, or gives it back. -/
theorem insertDevice_runs (draw : Devices.Draw) (new : Db.Devices.NewDevice) :
    Runs i op (fun _ m => m = .idle) (Devices.insertDevice draw new)
      (.flying (new.serverId, new.allocatedIp)) := by
  refine (storeDevice_runs draw.id new).attempt_bind ?_ ?_
  · rintro (e | id) m hm
    · subst hm
      exact (releaseInFlight_runs (new.serverId, new.allocatedIp)).attempt_bind (fun _ _ h => h)
        fun _ _ h => h
    · exact hm
  · rintro e m ⟨⟩

theorem create_runs (userId : Uuid) (body : Devices.CreateBody) (draw : Devices.Draw) :
    Runs i op Ends (Devices.create userId body draw) .idle := by
  unfold Devices.create
  refine plain_then (currentUser_issues userId) ⟨rfl, rfl⟩ (fun user => ?_) fun _ => ⟨rfl, rfl⟩
  refine plain_then (issues_failIf _ _) ⟨rfl, rfl⟩ (fun _ => ?_) fun _ => ⟨rfl, rfl⟩
  refine plain_then (checkDeviceLimit_issues _) ⟨rfl, rfl⟩ (fun _ => ?_) fun _ => ⟨rfl, rfl⟩
  refine plain_then pickServer_issues ⟨rfl, rfl⟩ (fun server => ?_) fun _ => ⟨rfl, rfl⟩
  refine (takeAddress_runs server.id body.allocatedIp).attempt_bind ?_ fun _ _ h => h ▸ ⟨rfl, rfl⟩
  rintro ip m rfl
  refine plain_then (issues_lift trivial) ⟨rfl, rfl⟩ (fun encrypted => ?_) fun _ => ⟨rfl, rfl⟩
  refine (insertDevice_runs draw _).attempt_bind ?_ fun _ _ h => h ▸ ⟨rfl, rfl⟩
  rintro deviceId m rfl
  refine plain_runs ?_ ⟨rfl, rfl⟩ fun _ => ⟨rfl, rfl⟩
  refine issues_bind (issues_sql trivial) fun quota => ?_
  refine issues_bind (seedQuota_issues _ _) fun _ => ?_
  refine issues_bind (issues_lift trivial) fun _ => ?_
  refine issues_bind (issues_lift trivial) fun _ => ?_
  exact installStored_issues _ _ _ _ _

theorem provision_runs (user : Db.User) (body : Devices.ConnectBody) (draw : Devices.Draw) :
    Runs i op Ends (Devices.provision user body draw) .idle := by
  unfold Devices.provision
  refine plain_then (checkDeviceLimit_issues _) ⟨rfl, rfl⟩ (fun _ => ?_) fun _ => ⟨rfl, rfl⟩
  refine plain_then (provisionName_issues body) ⟨rfl, rfl⟩ (fun name => ?_) fun _ => ⟨rfl, rfl⟩
  refine plain_then pickServer_issues ⟨rfl, rfl⟩ (fun server => ?_) fun _ => ⟨rfl, rfl⟩
  refine (allocateAuto_runs server.id).attempt_bind ?_ fun _ _ h => h ▸ ⟨rfl, rfl⟩
  rintro ip m rfl
  refine plain_then (issues_lift trivial) ⟨rfl, rfl⟩ (fun encrypted => ?_) fun _ => ⟨rfl, rfl⟩
  refine (insertDevice_runs draw _).attempt_bind ?_ fun _ _ h => h ▸ ⟨rfl, rfl⟩
  rintro deviceId m rfl
  refine plain_runs ?_ ⟨rfl, rfl⟩ fun _ => ⟨rfl, rfl⟩
  refine issues_bind (issues_lift trivial) fun _ => ?_
  refine issues_bind (issues_lift trivial) fun _ => ?_
  exact installStored_issues _ _ _ _ _

theorem connect_runs (userId : Uuid) (body : Devices.ConnectBody) (wasOffline : Bool)
    (draw : Devices.Draw) :
    Runs i op Ends (Devices.connect userId body wasOffline draw) .idle := by
  unfold Devices.connect
  refine plain_then (currentUser_issues userId) ⟨rfl, rfl⟩ (fun user => ?_) fun _ => ⟨rfl, rfl⟩
  refine plain_then (namedDevice_issues _ _) ⟨rfl, rfl⟩ (fun device => ?_) fun _ => ⟨rfl, rfl⟩
  split
  · exact plain_runs (reconnect_issues _ _ _) ⟨rfl, rfl⟩ fun _ => ⟨rfl, rfl⟩
  · exact provision_runs user body draw

/-- The first of the addresses to free needs no release any more. -/
theorem Owned.drop {s : Sys} {μ : Nat → AddressNote} {place : Uuid × IpAddr}
    {xs : List (Uuid × IpAddr)} (hI : Owned s μ) (hi : μ i = .freeing (place :: xs)) :
    Owned s (Function.update μ i (.freeing xs)) := by
  have hmine := hI.holds i
  rw [hi] at hmine
  refine hI.update hI.addressed (fun j _ => hI.holds j)
    (holds_freeing (List.nodup_cons.mp hmine.nodup).2 fun x hx =>
      hmine.freed x (List.mem_cons_of_mem _ hx)) fun j hj => ?_
  refine (hI.apart i j (Ne.symm hj)).shrink (fun _ hx => by cases hx) ?_
  rw [hi]
  exact List.subset_cons_self _ _

theorem getAllocator_runs (v : Uuid) (ip : IpAddr) (xs : List (Uuid × IpAddr)) :
    Runs i op
      (fun r m => ∃ found : Bool, r = .ok found ∧
        m = if found then .freeing ((v, ip) :: xs) else .freeing xs)
      (call (.getAllocator v)) (.freeing ((v, ip) :: xs)) := by
  refine ⟨suitsDeletion_of_settled ⟨rfl, rfl⟩, ?_⟩
  intro s μ ok hI hi _
  cases ha : s.allocators v with
  | none =>
      refine ⟨.freeing xs, hI.drop hi, false, ?_, rfl⟩
      simp only [addressSystem, ApiCmd.sem, ha]
      rfl
  | some a =>
      refine ⟨.freeing ((v, ip) :: xs), ?_, true, ?_, rfl⟩
      · rw [← hi, Function.update_eq_self]
        exact hI
      · simp only [addressSystem, ApiCmd.sem, ha]
        rfl

/-- The allocator frees the first of the addresses. -/
theorem releaseFreed_runs {releaser : Releaser} (hreleaser : releaser ≠ .provision) (v : Uuid)
    (ip : IpAddr) (xs : List (Uuid × IpAddr)) :
    Runs i op (fun r m => (∃ u, r = .ok u) ∧ m = .freeing xs) (call (.release releaser v ip))
      (.freeing ((v, ip) :: xs)) := by
  refine ⟨suitsDeletion_of_settled ⟨rfl, rfl⟩, ?_⟩
  intro s μ ok hI hi _
  refine ⟨.freeing xs, ?_, ⟨_, rfl⟩, rfl⟩
  cases ha : s.allocators v with
  | none =>
      simp only [addressSystem, ApiCmd.sem, ha]
      exact hI.drop hi
  | some a =>
      have hmine := hI.holds i
      rw [hi] at hmine
      obtain ⟨_, hvacant, hout⟩ := hmine.freed (v, ip) List.mem_cons_self
      simp only [addressSystem, ApiCmd.sem, ha, if_neg hreleaser]
      refine hI.release ha hvacant (List.Sublist.refl _) hout
        (fun j hj => ⟨(hI.holds j).flight, ?_⟩) (fun x hx => ?_) rfl
        (List.nodup_cons.mp hmine.nodup).2
      · refine (hI.apart i j (Ne.symm hj)).freed (v, ip) ?_
        rw [hi]
        exact List.mem_cons_self
      · rw [hi]
        refine ⟨List.mem_cons_of_mem _ hx, ?_⟩
        rintro rfl
        exact (List.nodup_cons.mp hmine.nodup).1 hx

/-- One address of a device that was taken out of use is given back. -/
theorem releaseAddress_runs {releaser : Releaser} (hreleaser : releaser ≠ .provision) (v : Uuid)
    (ip : IpAddr) (xs : List (Uuid × IpAddr)) :
    Runs i op (fun r m => (∃ u, r = .ok u) ∧ m = .freeing xs) (releaseAddress releaser v ip)
      (.freeing ((v, ip) :: xs)) := by
  refine (getAllocator_runs v ip xs).attempt_bind ?_ ?_
  · rintro found m ⟨found', hfound, rfl⟩
    cases hfound
    cases found with
    | false =>
        exact ⟨⟨(), rfl⟩, rfl⟩
    | true =>
        exact releaseFreed_runs hreleaser v ip xs
  · rintro e m ⟨_, herror, _⟩
    cases herror

/-- The note after a revocation that changed `n` rows. -/
def AddressNote.revoked (d : Device) (n : Nat) : AddressNote :=
  if n = 0 then .reading d else .freeing [placeOf d]

/-- The row of a device that was read is revoked, if it is still there. -/
theorem setRevoked_runs (device : Device) :
    Runs i op
      (fun r m => match r with
        | .ok n => m = .revoked device n
        | .error _ => m = .reading device)
      (sql (.setStatus device.userId device.id .revoked)) (.reading device) := by
  refine ⟨suitsDeletion_of_settled ⟨rfl, rfl⟩, ?_⟩
  intro s μ ok hI hi hcond
  have hread : Owned s (Function.update μ i (.reading device)) := by
    rw [← hi, Function.update_eq_self]
    exact hI
  cases ok with
  | false =>
      exact ⟨.reading device, hread, rfl⟩
  | true =>
      obtain ⟨hlive, hothers⟩ := hcond rfl
      cases hrun : (DbCall.setStatus device.userId device.id .revoked).run s.db with
      | error e =>
          refine ⟨.reading device, ?_, ?_⟩
          · simpa only [addressSystem, ApiCmd.sem, hrun] using hread
          · simp only [addressSystem, ApiCmd.sem, hrun]
            rfl
      | ok out =>
          obtain ⟨n, db'⟩ := out
          obtain ⟨htables, hn⟩ := Db.updateDevices_eq_ok hrun
          have haddressed := hI.addressed.addsNoAddress (addsNoAddress_of_keeps
            (q := .setStatus device.userId device.id .revoked) rfl hrun)
          refine ⟨.revoked device n, ?_, ?_⟩
          · simp only [addressSystem, ApiCmd.sem, hrun, AddressNote.revoked]
            split
            · rename_i hzero
              refine hread.same haddressed fun j => (hread.holds j).same rfl rfl ?_ ?_
              · rw [htables]
                dsimp only
                rw [updateWhere_of_unaffected (hn.symm.trans hzero)]
              · rw [htables]
            · rename_i hpos
              refine hI.revoke haddressed (by rw [hi]; rfl) ?_ ?_ ?_ hlive hothers
              · rw [htables]
              · rw [htables]
              · rw [hn, rowsAffected, List.length_eq_zero_iff, List.filter_eq_nil_iff] at hpos
                push Not at hpos
                exact hpos
          · simp only [addressSystem, ApiCmd.sem, hrun]
            rfl

/-- A device that was read is revoked, and its address is given back. -/
theorem teardownDevice_runs (device : Device) :
    Runs i op Ends (Devices.teardownDevice device) (.reading device) := by
  unfold Devices.teardownDevice
  refine (setRevoked_runs device).attempt_bind ?_ fun _ _ h => h ▸ ⟨rfl, rfl⟩
  rintro n m rfl
  cases n with
  | zero =>
      exact ⟨rfl, rfl⟩
  | succ n =>
      have hfail : failIf (n + 1 == 0) ApiError.notFound = pure () := rfl
      rw [hfail, pure_bind]
      refine (releaseAddress_runs Releaser.noConfusion device.serverId device.allocatedIp
        []).attempt_bind ?_ fun _ _ h => h.2 ▸ ⟨rfl, rfl⟩
      rintro _ m ⟨_, rfl⟩
      exact plain_runs (issues_bind (issues_call trivial) fun _ => issues_pure ()) ⟨rfl, rfl⟩
        fun _ => ⟨rfl, rfl⟩

/-- The note after a device was looked up. -/
abbrev AddressNote.looked (o : Option Device) : AddressNote := o.elim .idle .reading

theorem Owned.looked {s : Sys} {μ : Nat → AddressNote} (h : Owned s μ) {o : Option Device}
    (ho : ∀ d, o = some d → d ∈ s.db.devices) : Owned s (Function.update μ i (.looked o)) := by
  cases o with
  | none =>
      exact h.note (holds_idle s) rfl rfl
  | some d =>
      exact h.note (holds_reading (ho d rfl)) rfl rfl

theorem delete_runs (userId deviceId : Uuid) :
    Runs i op Ends (Devices.delete userId deviceId) .idle := by
  unfold Devices.delete
  refine plain_then (currentUser_issues userId) ⟨rfl, rfl⟩ (fun user => ?_) fun _ => ⟨rfl, rfl⟩
  refine Follows.attempt_bind
    (follows_read rfl (q := .findForUser user.id deviceId) AddressNote.looked
      (suitsDeletion_of_settled ⟨rfl, rfl⟩) ?_ fun _ => rfl) ?_ fun _ _ h => h ▸ ⟨rfl, rfl⟩
  · intro s μ hI _
    exact ⟨_, rfl, hI.looked fun d hd => List.mem_of_find?_eq_some hd⟩
  · rintro (_ | device) m rfl
    · exact ⟨rfl, rfl⟩
    · rw [show okOr (some device) ApiError.notFound = pure device from rfl, pure_bind]
      refine (teardownDevice_runs device).attempt_bind ?_ fun _ _ h => h
      intro _ m hm
      exact plain_runs (issues_lift trivial) hm fun _ => hm

theorem revokeDevice_runs (actorId deviceId : Uuid) :
    Runs i op Ends (Admin.revokeDevice actorId deviceId) .idle := by
  unfold Admin.revokeDevice
  refine plain_then (requireAdmin_issues actorId) ⟨rfl, rfl⟩ (fun _ => ?_) fun _ => ⟨rfl, rfl⟩
  refine Follows.attempt_bind
    (follows_read rfl (q := .getById deviceId) AddressNote.looked
      (suitsDeletion_of_settled ⟨rfl, rfl⟩) ?_ fun _ => rfl) ?_ fun _ _ h => h ▸ ⟨rfl, rfl⟩
  · intro s μ hI _
    exact ⟨_, rfl, hI.looked fun d hd => List.mem_of_find?_eq_some hd⟩
  · rintro (_ | device) m rfl
    · exact ⟨rfl, rfl⟩
    · rw [show okOr (some device) ApiError.notFound = pure device from rfl, pure_bind]
      refine plain_then (issues_failIf _ _) ⟨rfl, rfl⟩ (fun _ => ?_) fun _ => ⟨rfl, rfl⟩
      refine (teardownDevice_runs device).attempt_bind ?_ fun _ _ h => h
      intro _ m hm
      exact plain_runs (issues_lift trivial) hm fun _ => hm

/-- Removing a peer never ends the request. -/
theorem removePeerIfActive_runs (d : Device) (hm : m.Settled) :
    Runs i op (fun r m' => (∃ u, r = .ok u) ∧ m' = m) (Admin.removePeerIfActive d) m := by
  unfold Admin.removePeerIfActive
  split
  · refine ⟨suitsDeletion_of_settled hm, ?_⟩
    intro s μ ok hI hi _
    refine ⟨m, ?_, ⟨(), rfl⟩, rfl⟩
    rw [← hi, Function.update_eq_self]
    exact hI.plain (c := .removePeer d.publicKey) trivial ok
  · exact ⟨⟨(), rfl⟩, rfl⟩

/-- The loop over the listed devices gives one address back after the other. -/
theorem forgetDevices_runs {releaser : Releaser} (hreleaser : releaser ≠ .provision)
    (ds : List Device) :
    Runs i op Ends (Admin.forgetDevices releaser ds) (.freeing (ds.map placeOf)) := by
  induction ds with
  | nil =>
      exact ⟨rfl, rfl⟩
  | cons d ds ih =>
      unfold Admin.forgetDevices
      refine (removePeerIfActive_runs d ⟨rfl, rfl⟩).attempt_bind ?_ fun _ _ h => by
        cases h.1.choose_spec
      rintro _ m ⟨_, rfl⟩
      refine (releaseAddress_runs hreleaser d.serverId d.allocatedIp
        (ds.map placeOf)).attempt_bind ?_ fun _ _ h => by cases h.1.choose_spec
      rintro _ m ⟨_, rfl⟩
      exact ih

/-- The devices that are listed have different addresses. -/
theorem nodup_placesOf_listForUser (db : Db) (userId : Uuid) :
    ((Db.Devices.listForUser userId db).map placeOf).Nodup := by
  refine db.valid.devices_address.sublist (List.Sublist.map _ ?_)
  have hfilter : Db.Devices.listForUser userId db =
      (db.devices.filter Device.live).filter (fun d => d.userId == userId) := by
    rw [List.filter_filter]
    rfl
  rw [hfilter]
  exact List.filter_sublist

/-- `delete_user` lists the devices of the account and is about to delete it. -/
theorem listDevices_runs (userId : Uuid) :
    Runs i op (fun r m => ∃ listed, r = .ok listed ∧
        m = .listing userId ((listedDevices listed).map placeOf))
      (trySql (.listForUser userId)) .idle := by
  refine ⟨suitsDeletion_of_settled ⟨rfl, rfl⟩, ?_⟩
  intro s μ ok hI hi _
  cases ok with
  | false =>
      refine ⟨.listing userId [], ?_, .error .unavailable, rfl, rfl⟩
      exact hI.note (holds_listing List.nodup_nil fun _ hx => by cases hx) rfl rfl
  | true =>
      refine ⟨.listing userId ((Db.Devices.listForUser userId s.db).map placeOf), ?_,
        .ok (Db.Devices.listForUser userId s.db), rfl, rfl⟩
      refine hI.note (holds_listing (nodup_placesOf_listForUser s.db userId) fun x hx => ?_) rfl rfl
      obtain ⟨d, hd, hplace⟩ := List.mem_map.mp hx
      obtain ⟨hd, hrow⟩ := List.mem_filter.mp hd
      simp only [Bool.and_eq_true, beq_iff_eq] at hrow
      exact ⟨d, hd, hrow.2, hrow.1, hplace⟩

/-- The account is deleted, and the addresses of the listed devices are given back. -/
theorem hardDelete_runs (userId : Uuid) (places : List (Uuid × IpAddr)) :
    Runs i op (fun r m => match r with
        | .ok _ => m = .freeing places
        | .error _ => m = .idle)
      (sql (.hardDelete userId)) (.listing userId places) := by
  refine ⟨⟨?_, ?_⟩, ?_⟩
  · intro u places' hlisted
    cases hlisted
    exact beq_self_eq_true userId
  · intro u hclosed
    cases hclosed
  intro s μ ok hI hi hcond
  have hstays : Owned s (Function.update μ i .idle) := hI.note (holds_idle s) rfl rfl
  cases ok with
  | false =>
      exact ⟨.idle, hstays, rfl⟩
  | true =>
      cases hrun : (DbCall.hardDelete userId).run s.db with
      | error e =>
          refine ⟨.idle, ?_, ?_⟩
          · simpa only [addressSystem, ApiCmd.sem, hrun] using hstays
          · simp only [addressSystem, ApiCmd.sem, hrun]
            rfl
      | ok out =>
          obtain ⟨_, db'⟩ := out
          have haddressed := hI.addressed.addsNoAddress (addsNoAddress_hardDelete hrun)
          refine ⟨.freeing places, ?_, ?_⟩
          · simp only [addressSystem, ApiCmd.sem, hrun]
            exact hI.hardDelete haddressed (by rw [hi]; rfl) hrun (hcond rfl)
          · simp only [addressSystem, ApiCmd.sem, hrun]
            rfl

theorem deleteUser_runs (actorId targetId : Uuid) :
    Runs i op Ends (Admin.deleteUser actorId targetId) .idle := by
  unfold Admin.deleteUser
  refine plain_then (requireAdmin_issues actorId) ⟨rfl, rfl⟩ (fun actor => ?_) fun _ => ⟨rfl, rfl⟩
  refine plain_then (issues_failIf _ _) ⟨rfl, rfl⟩ (fun _ => ?_) fun _ => ⟨rfl, rfl⟩
  refine plain_then (issues_sql trivial) ⟨rfl, rfl⟩ (fun found => ?_) fun _ => ⟨rfl, rfl⟩
  refine plain_then (issues_okOr _ _) ⟨rfl, rfl⟩ (fun target => ?_) fun _ => ⟨rfl, rfl⟩
  refine plain_then (keepLastAdmin_issues target) ⟨rfl, rfl⟩ (fun _ => ?_) fun _ => ⟨rfl, rfl⟩
  refine (listDevices_runs target.id).attempt_bind ?_ fun _ _ h => by
    obtain ⟨_, herror, _⟩ := h
    cases herror
  rintro listed m ⟨_, hlisted, rfl⟩
  cases hlisted
  refine (hardDelete_runs target.id _).attempt_bind ?_ fun _ _ h => h ▸ ⟨rfl, rfl⟩
  rintro _ m rfl
  have hrest : ∀ ds, Runs i op Ends
      (do Admin.forgetDevices .deleteUser ds; audit "admin.user_deleted" (some target.id))
      (.freeing (ds.map placeOf)) := by
    intro ds
    refine (forgetDevices_runs Releaser.noConfusion ds).attempt_bind ?_ fun _ _ h => h
    rintro _ m hm
    exact plain_runs (issues_lift trivial) hm fun _ => hm
  cases listed with
  | error e =>
      exact hrest []
  | ok devices =>
      exact hrest devices

/-- The devices of the account are revoked. -/
theorem softDelete_runs (userId : Uuid) (now : Int) :
    Runs i op (fun r m => match r with
        | .ok _ => m = .closing userId
        | .error _ => m = .idle)
      (sql (.softDelete userId now)) .idle := by
  refine ⟨suitsDeletion_of_settled ⟨rfl, rfl⟩, ?_⟩
  intro s μ ok hI hi hcond
  have hstays : Owned s (Function.update μ i .idle) := hI.note (holds_idle s) rfl rfl
  cases ok with
  | false =>
      exact ⟨.idle, hstays, rfl⟩
  | true =>
      cases hrun : (DbCall.softDelete userId now).run s.db with
      | error e =>
          refine ⟨.idle, ?_, ?_⟩
          · simpa only [addressSystem, ApiCmd.sem, hrun] using hstays
          · simp only [addressSystem, ApiCmd.sem, hrun]
            rfl
      | ok out =>
          obtain ⟨_, db'⟩ := out
          have haddressed := hI.addressed.addsNoAddress (addsNoAddress_softDelete hrun)
          refine ⟨.closing userId, ?_, ?_⟩
          · simp only [addressSystem, ApiCmd.sem, hrun]
            exact hI.softDelete haddressed hrun (hcond rfl)
          · simp only [addressSystem, ApiCmd.sem, hrun]
            rfl

section DeleteAccount

variable {owner : Uuid} {now : Int} (userId : Uuid)

/-- The deletion is recorded. -/
theorem auditDeletion_runs :
    Runs i (.deleteAccount owner now) (fun r m => match r with
        | .ok _ => m = .closing userId
        | .error _ => m = .idle)
      (audit "user.deleted" (some userId)) (.closing userId) := by
  refine ⟨⟨?_, ?_⟩, ?_⟩
  · intro _ _ hlisted
    cases hlisted
  · intro _ hclosed
    cases hclosed
    exact beq_self_eq_true (some userId)
  intro s μ ok hI hi _
  cases ok with
  | false =>
      exact ⟨.idle, hI.note (holds_idle s) rfl rfl, rfl⟩
  | true =>
      refine ⟨.closing userId, ?_, rfl⟩
      rw [← hi, Function.update_eq_self]
      exact hI.plain (c := .audit "user.deleted" (some userId)) trivial true

/-- After the revocations there is no device to list. -/
theorem listRevoked_runs :
    Runs i (.deleteAccount owner now) (fun r m => ∃ listed, r = .ok listed ∧
        listedDevices listed = [] ∧ m = .idle)
      (trySql (.listForUser userId)) (.closing userId) := by
  refine ⟨⟨?_, ?_⟩, ?_⟩
  · intro _ _ hlisted
    cases hlisted
  · intro _ hclosed
    cases hclosed
    exact beq_self_eq_true userId
  intro s μ ok hI hi _
  have hstays : Owned s (Function.update μ i .idle) := hI.note (holds_idle s) rfl rfl
  cases ok with
  | false =>
      exact ⟨.idle, hstays, .error .unavailable, rfl, rfl, rfl⟩
  | true =>
      refine ⟨.idle, hstays, .ok (Db.Devices.listForUser userId s.db), rfl, ?_, rfl⟩
      refine List.filter_eq_nil_iff.mpr fun d hd hrow => ?_
      simp only [Bool.and_eq_true, beq_iff_eq] at hrow
      have hnone := (hI.holds i).closed userId (by rw [hi]; rfl) d hd hrow.1
      rw [Device.live, hrow.2] at hnone
      cases hnone

end DeleteAccount

/-- `delete_account` lists the devices after it revoked them, and gives nothing back. -/
theorem deleteAccount_runs (userId : Uuid) (now : Int) :
    Runs i (.deleteAccount userId now) Ends (Me.deleteAccount userId now) .idle := by
  unfold Me.deleteAccount
  refine plain_then (currentUser_issues userId) ⟨rfl, rfl⟩ (fun user => ?_) fun _ => ⟨rfl, rfl⟩
  refine (softDelete_runs user.id now).attempt_bind ?_ fun _ _ h => h ▸ ⟨rfl, rfl⟩
  rintro _ m rfl
  refine (auditDeletion_runs user.id).attempt_bind ?_ fun _ _ h => h ▸ ⟨rfl, rfl⟩
  rintro _ m rfl
  refine (listRevoked_runs user.id).attempt_bind ?_ fun _ _ h => by
    obtain ⟨_, herror, _⟩ := h
    cases herror
  rintro listed m ⟨_, hlisted, hnone, rfl⟩
  cases hlisted
  cases listed with
  | error e =>
      exact ⟨rfl, rfl⟩
  | ok devices =>
      cases (hnone : devices = [])
      exact ⟨rfl, rfl⟩

/-- Every request that moves addresses may run from its start. -/
theorem handler_runs (hop : op.movesAddresses = true) :
    Runs i op Ends op.handler .idle := by
  cases op with
  | create userId body draw =>
      exact create_runs userId body draw
  | connect userId body wasOffline draw =>
      exact connect_runs userId body wasOffline draw
  | delete userId deviceId =>
      exact delete_runs userId deviceId
  | revokeDevice actorId deviceId =>
      exact revokeDevice_runs actorId deviceId
  | deleteUser actorId targetId =>
      exact deleteUser_runs actorId targetId
  | deleteAccount userId now =>
      exact deleteAccount_runs userId now
  | _ =>
      cases hop

end Requests

/-- A start takes the addresses over from the database. -/
theorem owned_rebooted (g : Bootstrap.Config × List Bool) {s : Sys} (h : InNetwork s.db) :
    Owned (rebooted g s) fun _ => .idle := by
  have hstart : Starting (s.stopped g.1, g.2) := ⟨addressed_stopped h, rfl⟩
  have hboot := boot_starting g.1 hstart
  unfold Attempt.wp at hboot
  have haddressed : Addressed (rebooted g s) := by
    unfold rebooted
    rcases hexec : (Bootstrap.boot g.1).exec (Program.faulty ApiCmd.sem) (s.stopped g.1, g.2)
      with ⟨⟨t, flags⟩, e | u⟩
    · rw [hexec] at hboot
      obtain ⟨ht, hflight⟩ := hboot
      dsimp only at ht hflight ⊢
      rw [show ({ t with allocators := fun _ => none } : Sys) =
        ⟨t.db, fun _ => none, t.interface, t.up, []⟩ by rw [← hflight]]
      exact addressed_stopped ht.inNetwork
    · rw [hexec] at hboot
      exact hboot.1
  exact ⟨haddressed, fun _ => holds_idle _, fun _ _ _ => .bare rfl rfl⟩

/-- The notes of a pool of requests. -/
abbrev Kept (p : AddressPool) (μ : Nat → AddressNote) : Prop :=
  Noted addressSystem Owned SuitsDeletion CallApart (fun _ _ m => m.Settled) .idle p μ

section Runs

variable {p : AddressPool} {μ : Nat → AddressNote}

/-- A request without a next call stands in no deletion. -/
theorem Noted.settledDeletion (h : Kept p μ) {i : Nat} (hi : nextCall p i = none) :
    (μ i).Settled := by
  rcases h.settled hi with ⟨_, _, hm⟩ | hm
  · exact hm
  · rw [hm]
    exact ⟨rfl, rfl⟩

theorem othersSpare_of_noOtherPurge (h : Kept p μ) {i : Nat} {userId : Uuid}
    (hcond : NoOtherPurge p i userId) : OthersSpare i userId μ := by
  intro j places hji hlisted
  cases hj : nextCall p j with
  | none =>
      rw [(Noted.settledDeletion h hj).1] at hlisted
      cases hlisted
  | some x =>
      have hnot := hcond j (lt_of_nextCall hj) hji
      rw [hj, Option.all_some, (h.suits hj).1 userId places hlisted] at hnot
      cases hnot

theorem open_of_notClosing (h : Kept p μ) {userId : Uuid} (hcond : NotClosing p userId) (j : Nat) :
    (μ j).closed ≠ some userId := by
  intro hclosed
  cases hj : nextCall p j with
  | none =>
      rw [(Noted.settledDeletion h hj).2] at hclosed
      cases hclosed
  | some x =>
      have hnot := hcond j (lt_of_nextCall hj)
      rw [hj, Option.all_some, (h.suits hj).2 userId hclosed] at hnot
      cases hnot

/-- The condition on the next calls becomes one on the notes. -/
theorem callApart_of_callKeepsApart (h : Kept p μ) {i : Nat} {ok : Bool} {op : Op} {c : ApiCmd}
    (hcond : ok = true → CallKeepsApart p i c) : CallApart i op c ok p.shared μ := by
  intro hok
  have hcall := hcond hok
  cases c with
  | sql q =>
      cases q with
      | setStatus userId deviceId status =>
          exact ⟨hcall.1, othersSpare_of_noOtherPurge h hcall.2⟩
      | softDelete userId now =>
          exact othersSpare_of_noOtherPurge h hcall
      | hardDelete userId =>
          exact othersSpare_of_noOtherPurge h hcall
      | createDevice id new =>
          exact open_of_notClosing h hcall
      | _ =>
          trivial
  | _ =>
      trivial

end Runs

/--
In every interleaving of device and account requests, deaths of requests and
starts that meets the condition, the allocators hold the address of every live
device, and what they hand out belongs to no live device.
-/
theorem live_addresses_stay_allocated (db : Db)
    (es : List (PoolEvent Op (Bootstrap.Config × List Bool)))
    (hdb : InNetwork db) (hrun : Along (poolStep addressSystem) KeepsApart (idle db) es) :
    Always (poolStep addressSystem)
      (fun p => AllocatorsSound p.shared ∧ HandsOutVacant p.shared) (idle db) es := by
  refine always_of_along (fun p => ∃ μ, Kept p μ) ?_ ?_ ?_ hrun
  · rintro p e ⟨μ, hp⟩ he
    refine noted_step ?_ hp ?_ ?_ ?_
    · rintro i op rfl
      exact handler_runs he
    · rintro i ok op c rfl hc
      exact callApart_of_callKeepsApart hp fun hok => he hok op c hc
    · rintro i op q rfl _
      exact hp.inv.note (holds_idle _) rfl rfl
    · rintro g rfl
      exact owned_rebooted g hp.inv.addressed.inNetwork
  · rintro p ⟨μ, hp⟩
    have hsound := hp.inv.addressed.sound
    exact ⟨hsound, handsOutVacant_of_sound hsound⟩
  · refine ⟨_, noted_init ⟨addressed_stopped hdb, fun _ => holds_idle _, ?_⟩⟩
    exact fun _ _ _ => .bare rfl rfl

/-- A device is created, and its address is in flight while another one is
created and revoked. -/
def sampleInterleaving : List (PoolEvent Op (Bootstrap.Config × List Bool)) :=
  PoolEvent.restart (sampleConfig, []) ::
    PoolEvent.spawn (Op.create 2 ⟨"laptop", none, none⟩ ⟨20, "private", sampleKey⟩) ::
      List.replicate 7 (PoolEvent.step 0 true) ++
        serveAll 1
          [Op.create 2 ⟨"phone", none, none⟩ ⟨21, "other", sampleOtherKey⟩, Op.delete 2 21] ++
        List.replicate 8 (PoolEvent.step 0 true)

theorem live_addresses_stay_allocated_sample :
    AllocatorsSound
        (runEvents (poolStep addressSystem) (idle sampleDb) sampleInterleaving).shared ∧
      (runEvents (poolStep addressSystem) (idle sampleDb) sampleInterleaving).shared.db.devices.map
        (fun d => (d.id, d.live)) = [(21, false), (20, true)] :=
  ⟨(live_addresses_stay_allocated sampleDb sampleInterleaving (by decide)
    (by decide)).last.1, by decide⟩

/-- A device is revoked, its address goes to another device, and the owner
revokes the first device once more. -/
theorem repeated_delete_frees_live_address :
    ¬ AllocatorsSound
      (runEvents (poolStep addressSystem) (idle sampleDb)
        (PoolEvent.restart (sampleConfig, []) ::
          serveAll 0
            [Op.create 2 ⟨"laptop", none, none⟩ ⟨20, "private", sampleKey⟩, Op.delete 2 20,
              Op.create 1 ⟨"phone", none, none⟩ ⟨21, "other", sampleOtherKey⟩,
              Op.delete 2 20])).shared := by
  decide +kernel

end Api
end ZeroVpn
