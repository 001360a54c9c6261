import ZeroVpn.Api.AddressRequests

/-!
# Addresses that are never given back

The converse of what `AddressOwnership` shows: when no request is in flight,
every address that an allocator has marked is reserved or belongs to a live
device.  An address that is marked otherwise is lost until the next start.

The handlers lose addresses in three ways: `delete_account` lists the devices
of the account after it revoked them, and so gives nothing back; `delete_user`
gives back what it listed before the deletion, which is nothing if the listing
failed and misses a device that is stored in between; and `create` and `connect`
do not give back the address when the encryption of the key fails.  The
condition of a run excludes exactly these.

Every request carries a note: the addresses that it has to give back or to
store, the account that it is about to delete with the addresses it listed, and
the device that it is about to revoke.
-/

namespace ZeroVpn

open Library
open Library.Attempt (Issues issues_bind issues_pure issues_lift wp)

namespace Api

open Db (Uuid Device Server DbError)
open Wg (IpAddr IpAllocator)

/-- Every marked address is reserved or the address of a live device. -/
def NoLeak (s : Sys) : Prop :=
  ∀ v a ip, s.allocators v = some a → a.holds ip = true →
    a.network.reserved ip = true ∨ ¬ Vacant s.db (v, ip)

/-- No request is in flight. -/
def Quiescent (p : Pool Sys Op ApiCmd ApiCmd.Reply (Except ApiError Unit)) : Prop :=
  ∀ i, nextCall p i = none

instance (p : Pool Sys Op ApiCmd ApiCmd.Reply (Except ApiError Unit)) : Decidable (Quiescent p) :=
  decidable_of_iff (∀ i < p.threads.length, (nextCall p i).isNone = true) (by
    constructor
    · intro h i
      by_cases hi : i < p.threads.length
      · exact Option.isNone_iff_eq_none.mp (h i hi)
      · simp [nextCall, List.getElem?_eq_none (Nat.le_of_not_lt hi)]
    · intro h i _
      exact Option.isNone_iff_eq_none.mpr (h i))

/-- The account has no live device whose address is marked. -/
def NoMarkedDevice (s : Sys) (userId : Uuid) : Prop :=
  ∀ d ∈ s.db.devices, d.userId = userId → d.live = true →
    ∀ a, s.allocators d.serverId = some a → a.holds d.allocatedIp = false

instance (s : Sys) (userId : Uuid) : Decidable (NoMarkedDevice s userId) :=
  decidable_of_iff
    (∀ d ∈ s.db.devices, d.userId = userId → d.live = true →
      (s.allocators d.serverId).all (fun a => !a.holds d.allocatedIp) = true)
    (by simp only [NoMarkedDevice, Option.all_eq_true, Bool.not_eq_true'])

/-- The call deletes the account. -/
def Deletes (userId : Uuid) : ApiCmd → Bool
  | .sql (.hardDelete u) => u == userId
  | _ => false

/-- No `delete_user` of the account stands between its listing and its deletion. -/
def NotDeleting (p : Pool Sys Op ApiCmd ApiCmd.Reply (Except ApiError Unit)) (userId : Uuid) :
    Prop :=
  ∀ j < p.threads.length, ∀ x, nextCall p j = some x → Deletes userId x.2 = false

instance (p : Pool Sys Op ApiCmd ApiCmd.Reply (Except ApiError Unit)) (userId : Uuid) :
    Decidable (NotDeleting p userId) :=
  decidable_of_iff
    (∀ j < p.threads.length, (nextCall p j).all (fun x => !Deletes userId x.2) = true)
    (by simp only [NotDeleting, Option.all_eq_true, Bool.not_eq_true'])

/-- What the call of a request must meet, if it loses no address; `ok` says
whether the call succeeds. -/
def CallKeepsTrack (p : Pool Sys Op ApiCmd ApiCmd.Reply (Except ApiError Unit)) (ok : Bool)
    (op : Op) : ApiCmd → Prop
  | .encrypt _ => ok = true
  | .sql (.softDelete userId _) => ok = true → NoMarkedDevice p.shared userId
  | .sql (.createDevice _ new) => ok = true → NotDeleting p new.userId
  | .sql (.listForUser userId) =>
      match op with
      | .deleteUser .. => ok = false → NoLiveDevice p.shared.db userId
      | _ => True
  | _ => True

instance (p : Pool Sys Op ApiCmd ApiCmd.Reply (Except ApiError Unit)) (ok : Bool) (op : Op)
    (c : ApiCmd) : Decidable (CallKeepsTrack p ok op c) := by
  unfold CallKeepsTrack
  split <;> first | infer_instance | (split <;> infer_instance)

/-- The condition on one event of a run: requests end by an answer or an error. -/
def KeepsTrack (p : Pool Sys Op ApiCmd ApiCmd.Reply (Except ApiError Unit)) :
    PoolEvent Op (Bootstrap.Config × List Bool) → Prop
  | .spawn op => op.movesAddresses = true
  | .step i ok => ∀ op c, nextCall p i = some (op, c) → CallKeepsTrack p ok op c
  | .crash _ => False
  | .restart _ => True

instance (p : Pool Sys Op ApiCmd ApiCmd.Reply (Except ApiError Unit)) :
    (e : PoolEvent Op (Bootstrap.Config × List Bool)) → Decidable (KeepsTrack p e)
  | .spawn op => inferInstanceAs (Decidable (op.movesAddresses = true))
  | .step i ok =>
      match h : nextCall p i with
      | none => .isTrue (by
          intro op c hc
          rw [h] at hc
          cases hc)
      | some (op, c) => decidable_of_iff (CallKeepsTrack p ok op c) (by
          constructor
          · intro hcond op' c' hc
            rw [h] at hc
            cases hc
            exact hcond
          · intro hmeets
            exact hmeets op c h)
  | .crash _ => .isFalse fun h => h
  | .restart _ => .isTrue trivial

/-- The note of a request. -/
structure LeakNote where
  /-- Addresses that it has to give back or to store. -/
  owes : List (Uuid × IpAddr)
  /-- The account that it is about to delete, with the addresses it listed. -/
  deleting : Option (Uuid × List (Uuid × IpAddr))
  /-- The owner, the identifier and the address of the device that it is about to
  revoke. -/
  revoking : Option (Uuid × Uuid × (Uuid × IpAddr))

def LeakNote.idle : LeakNote := ⟨[], none, none⟩

/-- Every marked address is reserved, stored or owed by a request. -/
structure Accounted (s : Sys) (μ : Nat → LeakNote) : Prop where
  marked : ∀ v a ip, s.allocators v = some a → a.holds ip = true →
    a.network.reserved ip = true ∨ ¬ Vacant s.db (v, ip) ∨ ∃ i, (v, ip) ∈ (μ i).owes
  listed : ∀ i userId places, (μ i).deleting = some (userId, places) →
    ∀ d ∈ s.db.devices, d.userId = userId → d.live = true → placeOf d ∈ places
  read : ∀ i x, (μ i).revoking = some x → Remembered s.db x

/-- The condition of a call, in terms of the notes. -/
def CallAccounts (_ : Nat) (op : Op) (c : ApiCmd) (ok : Bool) (s : Sys) (μ : Nat → LeakNote) :
    Prop :=
  match c with
  | .encrypt _ => ok = true
  | .sql (.softDelete userId _) => ok = true → NoMarkedDevice s userId
  | .sql (.createDevice _ new) =>
      ok = true → ∀ j places, (μ j).deleting ≠ some (new.userId, places)
  | .sql (.listForUser userId) =>
      match op with
      | .deleteUser .. => ok = false → NoLiveDevice s.db userId
      | _ => True
  | _ => True

/-- A request that is about to delete an account does so with its next call. -/
def SuitsNote (_ : Op) (c : ApiCmd) (m : LeakNote) : Prop :=
  ∀ userId places, m.deleting = some (userId, places) → c = .sql (.hardDelete userId)

/-- A request with note `m` may run `p`, and ends with `Q`. -/
abbrev Tracks {α : Type} (i : Nat) (op : Op) (Q : Except ApiError α → LeakNote → Prop)
    (p : Handler α) (m : LeakNote) : Prop :=
  Follows addressSystem Accounted SuitsNote CallAccounts i op Q p.run m

section Steps

variable {s s' : Sys} {μ : Nat → LeakNote} {i : Nat} {m' : LeakNote}

/-- Rewriting the note of one request, in a state without new live devices. -/
theorem Accounted.update (h : Accounted s μ)
    (hmarked : ∀ v a ip, s'.allocators v = some a → a.holds ip = true →
      a.network.reserved ip = true ∨ ¬ Vacant s'.db (v, ip) ∨ (v, ip) ∈ m'.owes ∨
        ∃ j, j ≠ i ∧ (v, ip) ∈ (μ j).owes)
    (hlive : ∀ d' ∈ s'.db.devices, d'.live = true →
      ∃ d ∈ s.db.devices, d.live = true ∧ d.userId = d'.userId ∧ placeOf d = placeOf d')
    (hread : ∀ x, Remembered s.db x → Remembered s'.db x)
    (hdeleting : ∀ userId places, m'.deleting = some (userId, places) →
      ∀ d ∈ s'.db.devices, d.userId = userId → d.live = true → placeOf d ∈ places)
    (hrevoking : ∀ x, m'.revoking = some x → Remembered s'.db x) :
    Accounted s' (Function.update μ i m') where
  marked := by
    intro v a ip ha hholds
    rcases hmarked v a ip ha hholds with hres | hlive | howes | ⟨j, hji, howes⟩
    · exact Or.inl hres
    · exact Or.inr (Or.inl hlive)
    · exact Or.inr (Or.inr ⟨i, by rwa [Function.update_self]⟩)
    · exact Or.inr (Or.inr ⟨j, by rwa [Function.update_of_ne hji]⟩)
  listed := by
    intro j userId places hj d' hd' huser hlive'
    by_cases hji : j = i
    · rw [hji, Function.update_self] at hj
      exact hdeleting userId places hj d' hd' huser hlive'
    · rw [Function.update_of_ne hji] at hj
      obtain ⟨d, hd, hdlive, hduser, hplace⟩ := hlive d' hd' hlive'
      rw [← hplace]
      exact h.listed j userId places hj d hd (hduser.trans huser) hdlive
  read := by
    intro j x hj
    by_cases hji : j = i
    · rw [hji, Function.update_self] at hj
      exact hrevoking x hj
    · rw [Function.update_of_ne hji] at hj
      exact hread x (h.read j x hj)

/-- An address that some request owes is owed by this one or by another one. -/
theorem Accounted.owed (h : Accounted s μ) {v : Uuid} {a : IpAllocator} {ip : IpAddr}
    (ha : s.allocators v = some a) (hholds : a.holds ip = true) :
    a.network.reserved ip = true ∨ ¬ Vacant s.db (v, ip) ∨ (v, ip) ∈ (μ i).owes ∨
      ∃ j, j ≠ i ∧ (v, ip) ∈ (μ j).owes := by
  rcases h.marked v a ip ha hholds with hres | hlive | ⟨j, hj⟩
  · exact Or.inl hres
  · exact Or.inr (Or.inl hlive)
  · by_cases hji : j = i
    · exact Or.inr (Or.inr (Or.inl (hji ▸ hj)))
    · exact Or.inr (Or.inr (Or.inr ⟨j, hji, hj⟩))

theorem live_refl (s : Sys) : ∀ d' ∈ s.db.devices, d'.live = true →
    ∃ d ∈ s.db.devices, d.live = true ∧ d.userId = d'.userId ∧ placeOf d = placeOf d' :=
  fun d hd hlive => ⟨d, hd, hlive, rfl, rfl⟩

/-- Rewriting a note without touching the state. -/
theorem Accounted.note (h : Accounted s μ) (howes : ∀ x ∈ (μ i).owes, x ∈ m'.owes)
    (hdeleting : ∀ userId places, m'.deleting = some (userId, places) →
      ∀ d ∈ s.db.devices, d.userId = userId → d.live = true → placeOf d ∈ places)
    (hrevoking : ∀ x, m'.revoking = some x → Remembered s.db x) :
    Accounted s (Function.update μ i m') := by
  refine h.update (fun v a ip ha hholds => ?_) (live_refl s) (fun _ hx => hx) hdeleting hrevoking
  rcases h.owed ha hholds with hres | hlive | hmine | hother
  · exact Or.inl hres
  · exact Or.inr (Or.inl hlive)
  · exact Or.inr (Or.inr (Or.inl (howes _ hmine)))
  · exact Or.inr (Or.inr (Or.inr hother))

/-- A state with the same marks and the same rows. -/
theorem Accounted.same (h : Accounted s μ) (hallocators : s'.allocators = s.allocators)
    (hrows : s'.db.devices.map rowKey = s.db.devices.map rowKey)
    (husers : s'.db.users = s.db.users) : Accounted s' μ := by
  constructor
  case marked =>
    intro v a ip ha hholds
    rw [hallocators] at ha
    rcases h.marked v a ip ha hholds with hres | hlive | howes
    · exact Or.inl hres
    · refine Or.inr (Or.inl fun hvacant => hlive fun d hd hdlive hplace => ?_)
      obtain ⟨d', hd', hkey⟩ := rowKey_mem hrows hd
      simp only [rowKey, Prod.mk.injEq] at hkey
      exact hvacant d' hd' (hkey.2.2.2.trans hdlive) (hkey.2.2.1.trans hplace)
    · exact Or.inr (Or.inr howes)
  case listed =>
    intro j userId places hj d' hd' huser hlive
    obtain ⟨d, hd, hkey⟩ := rowKey_mem hrows.symm hd'
    simp only [rowKey, Prod.mk.injEq] at hkey
    rw [← hkey.2.2.1]
    exact h.listed j userId places hj d hd (hkey.2.1.trans huser) (hkey.2.2.2.trans hlive)
  case read =>
    exact fun j x hj => remembered_of_rowKey hrows husers (h.read j x hj)

/-- A plain call. -/
theorem Accounted.plain (h : Accounted s μ) {c : ApiCmd} (hc : Plain c) (ok : Bool) :
    Accounted (c.sem ok s).1 μ := by
  obtain ⟨hallocators, hrows, husers⟩ := rows_of_plain hc ok s
  exact h.same hallocators hrows husers

/-- A request takes an address. -/
theorem Accounted.take (h : Accounted s μ) {v : Uuid} {a a' : IpAllocator} {ip : IpAddr}
    {flight : List (Uuid × IpAddr)} (ha : s.allocators v = some a)
    (hnetwork : a'.network = a.network) (hm : μ i = .idle)
    (hholds : ∀ ip', a'.holds ip' = true ↔ a.holds ip' = true ∨ ip' = ip) :
    Accounted { s.setAllocator v a' with inFlight := flight }
      (Function.update μ i ⟨[(v, ip)], none, none⟩) := by
  refine h.update (fun w b ip' hb hmarked => ?_) (live_refl s) (fun _ hx => hx)
    (fun _ _ hnone => by cases hnone) (fun _ hnone => by cases hnone)
  have howed : ∀ b', s.allocators w = some b' → b'.holds ip' = true →
      b'.network.reserved ip' = true ∨ ¬ Vacant s.db (w, ip') ∨
        (w, ip') ∈ [(v, ip)] ∨ ∃ j, j ≠ i ∧ (w, ip') ∈ (μ j).owes := by
    intro b' hb' hold
    rcases h.owed (i := i) hb' hold with hres | hlive | hmine | hother
    · exact Or.inl hres
    · exact Or.inr (Or.inl hlive)
    · rw [hm] at hmine
      cases hmine
    · exact Or.inr (Or.inr (Or.inr hother))
  by_cases hw : w = v
  · subst hw
    have hb' : a' = b := by
      simpa [Sys.setAllocator] using hb
    subst hb'
    rcases (hholds ip').mp hmarked with hold | rfl
    · rw [hnetwork]
      exact howed a ha hold
    · exact Or.inr (Or.inr (Or.inl (by simp)))
  · refine howed b ?_ hmarked
    simpa [Sys.setAllocator, Function.update_of_ne hw] using hb

/-- An allocator that hands out nothing. -/
theorem Accounted.refused (h : Accounted s μ) {v : Uuid} {a a' : IpAllocator}
    (ha : s.allocators v = some a) (hnetwork : a'.network = a.network)
    (hholds : ∀ ip, a'.holds ip = a.holds ip) : Accounted (s.setAllocator v a') μ := by
  refine ⟨fun w b ip hb hmarked => ?_, h.listed, h.read⟩
  by_cases hw : w = v
  · subst hw
    have hb' : a' = b := by
      simpa [Sys.setAllocator] using hb
    subst hb'
    rw [hholds] at hmarked
    rw [hnetwork]
    exact h.marked w a ip ha hmarked
  · refine h.marked w b ip ?_ hmarked
    simpa [Sys.setAllocator, Function.update_of_ne hw] using hb

/-- The address that is given back is no longer owed. -/
theorem Accounted.release (h : Accounted s μ) {v : Uuid} {a : IpAllocator} {ip : IpAddr}
    {flight : List (Uuid × IpAddr)} (ha : s.allocators v = some a)
    (howes : ∀ x ∈ (μ i).owes, x = (v, ip) ∨ x ∈ m'.owes) (hdeleting : m'.deleting = none)
    (hrevoking : m'.revoking = (μ i).revoking) :
    Accounted { s.setAllocator v (a.release ip).1 with inFlight := flight }
      (Function.update μ i m') := by
  refine h.update (fun w b ip' hb hmarked => ?_) (live_refl s) (fun _ hx => hx)
    (fun _ _ hsome => by rw [hdeleting] at hsome; cases hsome)
    (fun x hx => h.read i x (hrevoking ▸ hx))
  have howed : ∀ b', s.allocators w = some b' → b'.holds ip' = true →
      ((w, ip') = (v, ip) → b'.network.reserved ip' = true) →
      b'.network.reserved ip' = true ∨ ¬ Vacant s.db (w, ip') ∨ (w, ip') ∈ m'.owes ∨
        ∃ j, j ≠ i ∧ (w, ip') ∈ (μ j).owes := by
    intro b' hb' hold hfreed
    rcases h.owed (i := i) hb' hold with hres | hlive | hmine | hother
    · exact Or.inl hres
    · exact Or.inr (Or.inl hlive)
    · rcases howes _ hmine with hx | hx
      · exact Or.inl (hfreed hx)
      · exact Or.inr (Or.inr (Or.inl hx))
    · exact Or.inr (Or.inr (Or.inr hother))
  by_cases hw : w = v
  · subst hw
    have hb' : (a.release ip).1 = b := by
      simpa [Sys.setAllocator] using hb
    subst hb'
    obtain ⟨hold, hfreed⟩ := IpAllocator.of_holds_release hmarked
    rw [(a.release_spec ip).1]
    exact howed a ha hold fun hx => hfreed (Prod.mk.inj hx).2
  · refine howed b ?_ hmarked fun hx => absurd (Prod.mk.inj hx).1 hw
    simpa [Sys.setAllocator, Function.update_of_ne hw] using hb

/-- Without an allocator nothing is marked. -/
theorem Accounted.forget (h : Accounted s μ) {v : Uuid} {ip : IpAddr}
    (ha : s.allocators v = none)
    (howes : ∀ x ∈ (μ i).owes, x = (v, ip) ∨ x ∈ m'.owes) (hdeleting : m'.deleting = none)
    (hrevoking : m'.revoking = (μ i).revoking) : Accounted s (Function.update μ i m') := by
  refine h.update (fun w b ip' hb hmarked => ?_) (live_refl s) (fun _ hx => hx)
    (fun _ _ hsome => by rw [hdeleting] at hsome; cases hsome)
    (fun x hx => h.read i x (hrevoking ▸ hx))
  rcases h.owed (i := i) hb hmarked with hres | hlive | hmine | hother
  · exact Or.inl hres
  · exact Or.inr (Or.inl hlive)
  · rcases howes _ hmine with hx | hx
    · rw [(Prod.mk.inj hx).1, ha] at hb
      cases hb
    · exact Or.inr (Or.inr (Or.inl hx))
  · exact Or.inr (Or.inr (Or.inr hother))

/-- The address is stored. -/
theorem Accounted.insert (h : Accounted s μ) {db' : Db} {flight : List (Uuid × IpAddr)}
    (new : Device) (hdevices : db'.devices = s.db.devices ++ [new])
    (husers : db'.users = s.db.users) (hlive : new.live = true)
    (howes : ∀ x ∈ (μ i).owes, x = placeOf new)
    (hnot : ∀ j places, (μ j).deleting ≠ some (new.userId, places)) :
    Accounted { s with db := db', inFlight := flight } (Function.update μ i .idle) := by
  constructor
  case marked =>
    intro v a ip ha hholds
    rcases h.owed (i := i) ha hholds with hres | hold | hmine | ⟨j, hji, hj⟩
    · exact Or.inl hres
    · refine Or.inr (Or.inl fun hvacant => hold fun d hd => hvacant d ?_)
      rw [hdevices]
      exact List.mem_append_left _ hd
    · refine Or.inr (Or.inl fun hvacant => hvacant new ?_ hlive (howes _ hmine).symm)
      rw [hdevices]
      exact List.mem_append_right _ (by simp)
    · exact Or.inr (Or.inr ⟨j, by rwa [Function.update_of_ne hji]⟩)
  case listed =>
    intro j userId places hj d hd huser hdlive
    by_cases hji : j = i
    · rw [hji, Function.update_self] at hj
      cases hj
    · rw [Function.update_of_ne hji] at hj
      rw [hdevices, List.mem_append, List.mem_singleton] at hd
      rcases hd with hd | rfl
      · exact h.listed j userId places hj d hd huser hdlive
      · rw [← huser] at hj
        exact absurd hj (hnot j places)
  case read =>
    intro j x hj
    by_cases hji : j = i
    · rw [hji, Function.update_self] at hj
      cases hj
    · rw [Function.update_of_ne hji] at hj
      rcases h.read j x hj with ⟨d, hd, hrow⟩ | hgone
      · refine Or.inl ⟨d, ?_, hrow⟩
        rw [hdevices]
        exact List.mem_append_left _ hd
      · refine Or.inr ?_
        rw [husers]
        exact hgone

/-- A device that was read is revoked, and its address is owed. -/
theorem Accounted.revoke (h : Accounted s μ) {db' : Db} {userId deviceId : Uuid}
    {place : Uuid × IpAddr} {flight : List (Uuid × IpAddr)}
    (hm : (μ i).revoking = some (userId, deviceId, place)) (howes : (μ i).owes = [])
    (hdevices : db'.devices = updateWhere (Db.Devices.owned userId deviceId)
      (fun d => { d with status := .revoked }) s.db.devices)
    (husers : db'.users = s.db.users) :
    Accounted { s with db := db', inFlight := flight }
      (Function.update μ i ⟨[place], none, none⟩) := by
  refine h.update (fun v a ip ha hholds => ?_) (live_of_revoked hdevices)
    (fun x hx => remembered_of_revoked hdevices (fun u hu => ⟨u, husers ▸ hu, rfl⟩) hx)
    (fun _ _ hnone => by cases hnone) (fun _ hnone => by cases hnone)
  rcases h.owed (i := i) ha hholds with hres | hold | hmine | hother
  · exact Or.inl hres
  · by_cases hvacant : Vacant db' (v, ip)
    · refine Or.inr (Or.inr (Or.inl ?_))
      unfold Vacant at hold
      push Not at hold
      obtain ⟨d, hd, hlive, hplace⟩ := hold
      have howned := vacant_of_revoked hdevices hvacant hd hlive hplace
      rw [← hplace, owned_of_remembered (h.read i _ hm) hd howned]
      exact List.mem_singleton_self _
    · exact Or.inr (Or.inl hvacant)
  · rw [howes] at hmine
    cases hmine
  · exact Or.inr (Or.inr (Or.inr hother))

/-- An account without marked devices is deleted softly. -/
theorem Accounted.softDelete (h : Accounted s μ) {db' : Db} {userId : Uuid} {now : Int}
    {flight : List (Uuid × IpAddr)} (hrun : Db.Users.softDelete userId now s.db = .ok ((), db'))
    (hnone : NoMarkedDevice s userId) : Accounted { s with db := db', inFlight := flight } μ := by
  have hdevices := (Db.Users.softDelete_eq_ok hrun).2
  have hids := users_of_softDelete hrun
  have hupdate : Accounted { s with db := db', inFlight := flight } (Function.update μ 0 (μ 0)) := by
    refine h.update (fun v a ip ha hholds => ?_) (live_of_revoked hdevices)
      (fun x hx => remembered_of_revoked hdevices hids hx) ?_
      (fun x hx => remembered_of_revoked hdevices hids (h.read 0 x hx))
    · rcases h.owed (i := 0) ha hholds with hres | hold | hmine | hother
      · exact Or.inl hres
      · refine Or.inr (Or.inl fun hvacant => ?_)
        unfold Vacant at hold
        push Not at hold
        obtain ⟨d, hd, hlive, hplace⟩ := hold
        have howner := vacant_of_revoked hdevices hvacant hd hlive hplace
        obtain ⟨rfl, rfl⟩ := Prod.mk.inj hplace
        have hfree := hnone d hd (by simpa using howner) hlive a ha
        rw [hholds] at hfree
        cases hfree
      · exact Or.inr (Or.inr (Or.inl hmine))
      · exact Or.inr (Or.inr (Or.inr hother))
    · intro u places hdeleting d' hd' huser hlive
      obtain ⟨d, hd, hdlive, hduser, hplace⟩ := live_of_revoked hdevices d' hd' hlive
      rw [← hplace]
      exact h.listed 0 u places hdeleting d hd (hduser.trans huser) hdlive
  rwa [Function.update_eq_self] at hupdate

/-- An account is deleted whose live devices were listed. -/
theorem Accounted.hardDelete (h : Accounted s μ) {db' : Db} {userId : Uuid}
    {places flight : List (Uuid × IpAddr)}
    (hm : (μ i).deleting = some (userId, places)) (howes : (μ i).owes = [])
    (hrun : Db.Users.hardDelete userId s.db = .ok ((), db')) :
    Accounted { s with db := db', inFlight := flight } (Function.update μ i ⟨places, none, none⟩) := by
  have hdevices := (rows_of_hardDelete hrun).2
  refine h.update (fun v a ip ha hholds => ?_) ?_ ?_ (fun _ _ hnone => by cases hnone)
    (fun _ hnone => by cases hnone)
  · rcases h.owed (i := i) ha hholds with hres | hold | hmine | hother
    · exact Or.inl hres
    · unfold Vacant at hold
      push Not at hold
      obtain ⟨d, hd, hlive, hplace⟩ := hold
      by_cases howner : d.userId = userId
      · refine Or.inr (Or.inr (Or.inl ?_))
        rw [← hplace]
        exact h.listed i userId places hm d hd howner hlive
      · refine Or.inr (Or.inl fun hvacant => hvacant d ?_ hlive hplace)
        rw [hdevices]
        exact List.mem_filter.mpr ⟨hd, by simpa using howner⟩
    · rw [howes] at hmine
      cases hmine
    · exact Or.inr (Or.inr (Or.inr hother))
  · intro d hd hlive
    rw [hdevices] at hd
    exact ⟨d, (List.mem_filter.mp hd).1, hlive, rfl, rfl⟩
  · exact fun x hx => remembered_of_hardDelete hrun hx

end Steps

section Requests

variable {i : Nat} {op : Op} {α β : Type} {m : LeakNote}

theorem suitsNote_of_none {c : ApiCmd} (hm : m.deleting = none) : SuitsNote op c m := by
  intro userId places hsome
  rw [hm] at hsome
  cases hsome

/-- Plain calls leave the note as it is. -/
theorem plain_tracks {Q : Except ApiError α → LeakNote → Prop} {p : Handler α}
    (hp : Issues Plain p) (hm : m.deleting = none) (hQ : ∀ r, Q r m) : Tracks i op Q p m := by
  refine follows_of_calls (P := Plain) ?_ ?_ hp hQ
  · intro c _
    exact suitsNote_of_none hm
  · intro c s μ ok hc hs _
    exact hs.plain hc ok

/-- A sequence that starts with plain calls. -/
theorem plain_first {Q : Except ApiError β → LeakNote → Prop} {p : Handler α} {k : α → Handler β}
    (hp : Issues Plain p) (hm : m.deleting = none) (hk : ∀ a, Tracks i op Q (k a) m)
    (herror : ∀ e, Q (.error e) m) : Tracks i op Q (p >>= k) m := by
  refine Follows.attempt_bind (plain_tracks (Q := fun _ m' => m' = m) hp hm fun _ => rfl) ?_ ?_
  · rintro a m' rfl
    exact hk a
  · rintro e m' rfl
    exact herror e

/-- The encryption of a key succeeds. -/
theorem encrypt_tracks (plaintext what : String) (hm : m.deleting = none) :
    Tracks i op (fun r m' => (∃ c, r = .ok c) ∧ m' = m) (encrypt plaintext what) m := by
  refine ⟨suitsNote_of_none hm, ?_⟩
  rintro s μ ok hI hi rfl
  refine ⟨m, ?_, ⟨_, rfl⟩, rfl⟩
  rw [← hi, Function.update_eq_self]
  exact hI

/-- The address that was handed out is owed. -/
def OwesResult (v : Uuid) (r : Except ApiError IpAddr) (m : LeakNote) : Prop :=
  match r with
  | .ok ip => m = ⟨[(v, ip)], none, none⟩
  | .error _ => m = .idle

theorem allocateAuto_tracks (v : Uuid) :
    Tracks i op (OwesResult v) (Devices.allocateAuto v) .idle := by
  refine ⟨suitsNote_of_none rfl, ?_⟩
  intro s μ ok hI hi _
  cases ha : s.allocators v with
  | none =>
      refine ⟨.idle, ?_, ?_⟩
      · rw [← hi, Function.update_eq_self]
        simpa only [addressSystem, ApiCmd.sem, ha] using hI
      · simp only [addressSystem, ApiCmd.sem, ha]
        rfl
  | some a =>
      obtain ⟨hnetwork, ⟨ip, hip, _, hholds⟩ | ⟨hnone, hholds⟩⟩ := a.allocate_spec
      · have hpair : a.allocate = (a.allocate.1, some (.ok ip)) := Prod.ext rfl hip
        refine ⟨⟨[(v, ip)], none, none⟩, ?_, ?_⟩
        · simp only [addressSystem, ApiCmd.sem, ha]
          rw [hpair]
          exact hI.take ha hnetwork hi hholds
        · simp only [addressSystem, ApiCmd.sem, ha]
          rw [hpair]
          rfl
      · refine ⟨.idle, ?_, ?_⟩
        · rw [← hi, Function.update_eq_self]
          simp only [addressSystem, ApiCmd.sem, ha]
          exact hI.refused ha hnetwork hholds
        · simp only [addressSystem, ApiCmd.sem, ha]
          rcases hpair : a.allocate with ⟨a', _ | e | ip⟩
          · rfl
          · rfl
          · exact absurd (by rw [hpair]) (hnone ip)

theorem reserveSpecific_tracks (v : Uuid) (raw : Option IpAddr) :
    Tracks i op (OwesResult v) (Devices.reserveSpecific v raw) .idle := by
  cases raw with
  | none =>
      rfl
  | some ip =>
      refine ⟨suitsNote_of_none rfl, ?_⟩
      intro s μ ok hI hi _
      cases ha : s.allocators v with
      | none =>
          refine ⟨.idle, ?_, ?_⟩
          · rw [← hi, Function.update_eq_self]
            simpa only [addressSystem, ApiCmd.sem, ha] using hI
          · simp only [addressSystem, ApiCmd.sem, ha]
            rfl
      | some a =>
          obtain ⟨hnetwork, ⟨hok, _, hholds⟩ | ⟨hnone, hsame⟩⟩ := a.tryReserve_spec ip
          · have hpair : a.tryReserve ip = ((a.tryReserve ip).1, .ok ()) := Prod.ext rfl hok
            refine ⟨⟨[(v, ip)], none, none⟩, ?_, ?_⟩
            · simp only [addressSystem, ApiCmd.sem, ha]
              rw [hpair]
              exact hI.take ha hnetwork hi hholds
            · simp only [addressSystem, ApiCmd.sem, ha]
              rw [hpair]
              rfl
          · obtain ⟨e, he⟩ : ∃ e, (a.tryReserve ip).2 = .error e := by
              cases hres : (a.tryReserve ip).2 with
              | error e =>
                  exact ⟨e, rfl⟩
              | ok u =>
                  exact absurd hres hnone
            have hpair : a.tryReserve ip = (a, .error e) := Prod.ext hsame he
            refine ⟨.idle, ?_, ?_⟩
            · rw [← hi, Function.update_eq_self]
              simp only [addressSystem, ApiCmd.sem, ha]
              rw [hpair]
              exact hI.refused ha rfl fun _ => rfl
            · simp only [addressSystem, ApiCmd.sem, ha]
              rw [hpair]
              cases e <;> rfl

theorem takeAddress_tracks (v : Uuid) (requested : Option (Option IpAddr)) :
    Tracks i op (OwesResult v) (Devices.takeAddress v requested) .idle := by
  cases requested with
  | none =>
      exact allocateAuto_tracks v
  | some raw =>
      exact reserveSpecific_tracks v raw

/-- One call to an allocator gives one owed address back. -/
theorem release_tracks (m' : LeakNote) (releaser : Releaser) (v : Uuid) (ip : IpAddr)
    (hm : m.deleting = none) (howes : ∀ x ∈ m.owes, x = (v, ip) ∨ x ∈ m'.owes)
    (hdeleting : m'.deleting = none) (hrevoking : m'.revoking = m.revoking) :
    Tracks i op (fun r m'' => (∃ u, r = .ok u) ∧ m'' = m') (call (.release releaser v ip)) m := by
  refine ⟨suitsNote_of_none hm, ?_⟩
  intro s μ ok hI hi _
  subst hi
  refine ⟨m', ?_, ⟨_, rfl⟩, rfl⟩
  cases ha : s.allocators v with
  | none =>
      simp only [addressSystem, ApiCmd.sem, ha]
      exact hI.forget ha howes hdeleting hrevoking
  | some a =>
      simp only [addressSystem, ApiCmd.sem, ha]
      exact hI.release ha howes hdeleting hrevoking

/-- `releaseAddress` gives one owed address back. -/
theorem releaseAddress_tracks (m' : LeakNote) (releaser : Releaser) (v : Uuid) (ip : IpAddr)
    (hm : m.deleting = none) (howes : ∀ x ∈ m.owes, x = (v, ip) ∨ x ∈ m'.owes)
    (hdeleting : m'.deleting = none) (hrevoking : m'.revoking = m.revoking) :
    Tracks i op (fun r m'' => (∃ u, r = .ok u) ∧ m'' = m') (releaseAddress releaser v ip) m := by
  have hget : Tracks i op
      (fun r m'' => ∃ found : Bool, r = .ok found ∧ m'' = if found then m else m')
      (call (.getAllocator v)) m := by
    refine ⟨suitsNote_of_none hm, ?_⟩
    intro s μ ok hI hi _
    cases ha : s.allocators v with
    | none =>
        subst hi
        refine ⟨m', hI.forget ha howes hdeleting hrevoking, false, ?_, rfl⟩
        simp only [addressSystem, ApiCmd.sem, ha]
        rfl
    | some a =>
        refine ⟨m, ?_, true, ?_, rfl⟩
        · rw [← hi, Function.update_eq_self]
          exact hI
        · simp only [addressSystem, ApiCmd.sem, ha]
          rfl
  refine hget.attempt_bind ?_ ?_
  · rintro found m'' ⟨found', hfound, rfl⟩
    cases hfound
    cases found with
    | false =>
        exact ⟨⟨(), rfl⟩, rfl⟩
    | true =>
        exact release_tracks m' releaser v ip hm howes hdeleting hrevoking
  · rintro e m'' ⟨_, herror, _⟩
    cases herror

/-- A request stores the address that it owes, or gives it back. -/
theorem insertDevice_tracks (draw : Devices.Draw) (new : Db.Devices.NewDevice) :
    Tracks i op (fun _ m => m = .idle) (Devices.insertDevice draw new)
      ⟨[(new.serverId, new.allocatedIp)], none, none⟩ := by
  have hstore : Tracks i op
      (fun r m => match r with
        | .ok (.ok _) => m = .idle
        | .ok (.error _) => m = ⟨[(new.serverId, new.allocatedIp)], none, none⟩
        | .error _ => False)
      (trySql (.createDevice draw.id new)) ⟨[(new.serverId, new.allocatedIp)], none, none⟩ := by
    refine ⟨suitsNote_of_none rfl, ?_⟩
    intro s μ ok hI hi hcond
    cases ok with
    | false =>
        refine ⟨_, ?_, rfl⟩
        rw [← hi, Function.update_eq_self]
        exact hI
    | true =>
        cases hrun : (DbCall.createDevice draw.id new).run s.db with
        | error e =>
            refine ⟨⟨[(new.serverId, new.allocatedIp)], none, none⟩, ?_, ?_⟩
            · rw [← hi, Function.update_eq_self]
              simpa only [addressSystem, ApiCmd.sem, hrun] using hI
            · simp only [addressSystem, ApiCmd.sem, hrun]
              rfl
        | ok out =>
            obtain ⟨id, db'⟩ := out
            have htables := (Db.write_return_eq_ok hrun).1
            refine ⟨.idle, ?_, ?_⟩
            · simp only [addressSystem, ApiCmd.sem, hrun]
              refine hI.insert (new.row draw.id) ?_ ?_ rfl ?_ (hcond rfl)
              · rw [htables]
              · rw [htables]
              · rw [hi]
                intro x hx
                exact List.mem_singleton.mp hx
            · simp only [addressSystem, ApiCmd.sem, hrun]
              rfl
  refine hstore.attempt_bind ?_ ?_
  · rintro (e | id) m hm
    · subst hm
      refine Follows.attempt_bind
        (release_tracks .idle .provision new.serverId new.allocatedIp rfl ?_ rfl rfl) ?_ ?_
      · intro x hx
        exact Or.inl (List.mem_singleton.mp hx)
      · rintro _ m' ⟨_, rfl⟩
        rfl
      · rintro _ m' ⟨_, rfl⟩
        rfl
    · exact hm
  · rintro e m ⟨⟩

theorem create_tracks (userId : Uuid) (body : Devices.CreateBody) (draw : Devices.Draw) :
    Tracks i op (fun _ m => m = .idle) (Devices.create userId body draw) .idle := by
  unfold Devices.create
  refine plain_first (currentUser_issues userId) rfl (fun user => ?_) fun _ => rfl
  refine plain_first (issues_failIf _ _) rfl (fun _ => ?_) fun _ => rfl
  refine plain_first (checkDeviceLimit_issues _) rfl (fun _ => ?_) fun _ => rfl
  refine plain_first pickServer_issues rfl (fun server => ?_) fun _ => rfl
  refine (takeAddress_tracks server.id body.allocatedIp).attempt_bind ?_ fun _ _ h => h
  rintro ip m rfl
  refine (encrypt_tracks _ _ rfl).attempt_bind ?_ fun _ _ h => by cases h.1.choose_spec
  rintro encrypted m ⟨_, rfl⟩
  refine (insertDevice_tracks draw _).attempt_bind ?_ fun _ _ h => h
  rintro deviceId m rfl
  refine plain_tracks ?_ rfl fun _ => rfl
  refine issues_bind (issues_sql trivial) fun quota => ?_
  refine issues_bind (seedQuota_issues _ _) fun _ => ?_
  refine issues_bind (issues_lift trivial) fun _ => ?_
  refine issues_bind (issues_lift trivial) fun _ => ?_
  exact installStored_issues _ _ _ _ _

theorem provision_tracks (user : Db.User) (body : Devices.ConnectBody) (draw : Devices.Draw) :
    Tracks i op (fun _ m => m = .idle) (Devices.provision user body draw) .idle := by
  unfold Devices.provision
  refine plain_first (checkDeviceLimit_issues _) rfl (fun _ => ?_) fun _ => rfl
  refine plain_first (provisionName_issues body) rfl (fun name => ?_) fun _ => rfl
  refine plain_first pickServer_issues rfl (fun server => ?_) fun _ => rfl
  refine (allocateAuto_tracks server.id).attempt_bind ?_ fun _ _ h => h
  rintro ip m rfl
  refine (encrypt_tracks _ _ rfl).attempt_bind ?_ fun _ _ h => by cases h.1.choose_spec
  rintro encrypted m ⟨_, rfl⟩
  refine (insertDevice_tracks draw _).attempt_bind ?_ fun _ _ h => h
  rintro deviceId m rfl
  refine plain_tracks ?_ rfl fun _ => rfl
  refine issues_bind (issues_lift trivial) fun _ => ?_
  refine issues_bind (issues_lift trivial) fun _ => ?_
  exact installStored_issues _ _ _ _ _

theorem connect_tracks (userId : Uuid) (body : Devices.ConnectBody) (wasOffline : Bool)
    (draw : Devices.Draw) :
    Tracks i op (fun _ m => m = .idle) (Devices.connect userId body wasOffline draw) .idle := by
  unfold Devices.connect
  refine plain_first (currentUser_issues userId) rfl (fun user => ?_) fun _ => rfl
  refine plain_first (namedDevice_issues _ _) rfl (fun device => ?_) fun _ => rfl
  split
  · exact plain_tracks (reconnect_issues _ _ _) rfl fun _ => rfl
  · exact provision_tracks user body draw

/-- The note of a request that has settled its account. -/
def LeakNote.Settled (m : LeakNote) : Prop := m.owes = [] ∧ m.deleting = none

/-- The note of a request that has read the device it is about to revoke. -/
def LeakNote.reading (d : Device) : LeakNote := ⟨[], none, some (d.userId, d.id, placeOf d)⟩

/-- A device that was found is remembered. -/
theorem Accounted.found {s : Sys} {μ : Nat → LeakNote} (h : Accounted s μ) (hi : μ i = .idle)
    {o : Option Device} (ho : ∀ d, o = some d → d ∈ s.db.devices) :
    Accounted s (Function.update μ i (o.elim .idle LeakNote.reading)) := by
  cases o with
  | none =>
      rw [Option.elim_none, ← hi, Function.update_eq_self]
      exact h
  | some d =>
      refine h.note ?_ (fun _ _ hnone => by cases hnone) ?_
      · rw [hi]
        intro x hx
        cases hx
      · intro x hx
        cases hx
        exact Or.inl ⟨d, ho d rfl, rfl, rfl, rfl⟩

/-- The note after a revocation that changed `n` rows. -/
def LeakNote.revoked (d : Device) (n : Nat) : LeakNote :=
  if n = 0 then .reading d else ⟨[placeOf d], none, none⟩

/-- A device that was read is revoked, and its address is given back. -/
theorem teardownDevice_tracks (device : Device) :
    Tracks i op (fun _ m => m.Settled) (Devices.teardownDevice device) (.reading device) := by
  have hstatus : Tracks i op
      (fun r m => match r with
        | .ok n => m = .revoked device n
        | .error _ => m = .reading device)
      (sql (.setStatus device.userId device.id .revoked)) (.reading device) := by
    refine ⟨suitsNote_of_none rfl, ?_⟩
    intro s μ ok hI hi _
    cases ok with
    | false =>
        refine ⟨.reading device, ?_, rfl⟩
        rw [← hi, Function.update_eq_self]
        exact hI
    | true =>
        cases hrun : (DbCall.setStatus device.userId device.id .revoked).run s.db with
        | error e =>
            refine ⟨.reading device, ?_, ?_⟩
            · rw [← hi, Function.update_eq_self]
              simpa only [addressSystem, ApiCmd.sem, hrun] using hI
            · simp only [addressSystem, ApiCmd.sem, hrun]
              rfl
        | ok out =>
            obtain ⟨n, db'⟩ := out
            obtain ⟨htables, hn⟩ := Db.updateDevices_eq_ok hrun
            have husers : db'.users = s.db.users := by
              rw [htables]
            refine ⟨.revoked device n, ?_, ?_⟩
            · simp only [addressSystem, ApiCmd.sem, hrun, LeakNote.revoked]
              split
              · rename_i hzero
                rw [← hi, Function.update_eq_self]
                refine hI.same rfl ?_ husers
                rw [htables]
                dsimp only
                rw [updateWhere_of_unaffected (hn.symm.trans hzero)]
              · refine hI.revoke (by rw [hi]; rfl) (by rw [hi]; rfl) ?_ husers
                rw [htables]
            · simp only [addressSystem, ApiCmd.sem, hrun]
              rfl
  unfold Devices.teardownDevice
  refine hstatus.attempt_bind ?_ ?_
  · rintro n m rfl
    cases n with
    | zero =>
        exact ⟨rfl, rfl⟩
    | succ n =>
        have hfail : failIf (n + 1 == 0) ApiError.notFound = pure () := rfl
        rw [hfail, pure_bind]
        refine Follows.attempt_bind (releaseAddress_tracks .idle .teardownDevice
          device.serverId device.allocatedIp rfl ?_ rfl rfl) ?_ ?_
        · intro x hx
          exact Or.inl (List.mem_singleton.mp hx)
        · rintro _ m ⟨_, rfl⟩
          exact plain_tracks (issues_bind (issues_call trivial) fun _ => issues_pure ()) rfl
            fun _ => ⟨rfl, rfl⟩
        · rintro _ m ⟨_, rfl⟩
          exact ⟨rfl, rfl⟩
  · rintro e m rfl
    exact ⟨rfl, rfl⟩

theorem delete_tracks (userId deviceId : Uuid) :
    Tracks i op (fun _ m => m.Settled) (Devices.delete userId deviceId) .idle := by
  unfold Devices.delete
  refine plain_first (currentUser_issues userId) rfl (fun user => ?_) fun _ => ⟨rfl, rfl⟩
  refine Follows.attempt_bind
    (follows_read rfl (q := .findForUser user.id deviceId)
      (fun o : Option Device => o.elim LeakNote.idle LeakNote.reading) (suitsNote_of_none rfl)
      ?_ fun _ => rfl) ?_ ?_
  · intro s μ hI hi
    exact ⟨_, rfl, hI.found hi fun d hd => List.mem_of_find?_eq_some hd⟩
  · rintro (_ | device) m rfl
    · exact ⟨rfl, rfl⟩
    · rw [show okOr (some device) ApiError.notFound = pure device from rfl, pure_bind]
      refine (teardownDevice_tracks device).attempt_bind ?_ fun _ _ h => h
      intro _ m hm
      exact plain_tracks (issues_lift trivial) hm.2 fun _ => hm
  · rintro e m rfl
    exact ⟨rfl, rfl⟩

theorem revokeDevice_tracks (actorId deviceId : Uuid) :
    Tracks i op (fun _ m => m.Settled) (Admin.revokeDevice actorId deviceId) .idle := by
  unfold Admin.revokeDevice
  refine plain_first (requireAdmin_issues actorId) rfl (fun _ => ?_) fun _ => ⟨rfl, rfl⟩
  refine Follows.attempt_bind
    (follows_read rfl (q := .getById deviceId)
      (fun o : Option Device => o.elim LeakNote.idle LeakNote.reading) (suitsNote_of_none rfl)
      ?_ fun _ => rfl) ?_ ?_
  · intro s μ hI hi
    exact ⟨_, rfl, hI.found hi fun d hd => List.mem_of_find?_eq_some hd⟩
  · rintro (_ | device) m rfl
    · exact ⟨rfl, rfl⟩
    · rw [show okOr (some device) ApiError.notFound = pure device from rfl, pure_bind]
      refine plain_first (issues_failIf _ _) rfl (fun _ => ?_) fun _ => ⟨rfl, rfl⟩
      refine (teardownDevice_tracks device).attempt_bind ?_ fun _ _ h => h
      intro _ m hm
      exact plain_tracks (issues_lift trivial) hm.2 fun _ => hm
  · rintro e m rfl
    exact ⟨rfl, rfl⟩

/-- Removing a peer never ends the request. -/
theorem removePeerIfActive_tracks (d : Device) (hm : m.deleting = none) :
    Tracks i op (fun r m' => (∃ u, r = .ok u) ∧ m' = m) (Admin.removePeerIfActive d) m := by
  unfold Admin.removePeerIfActive
  split
  · refine ⟨suitsNote_of_none hm, ?_⟩
    intro s μ ok hI hi _
    refine ⟨m, ?_, ⟨(), rfl⟩, rfl⟩
    rw [← hi, Function.update_eq_self]
    exact hI.plain (c := .removePeer d.publicKey) trivial ok
  · exact ⟨⟨(), rfl⟩, rfl⟩

/-- The loop over the listed devices gives one address back after the other. -/
theorem forgetDevices_tracks (releaser : Releaser) (ds : List Device) :
    Tracks i op (fun _ m => m = .idle) (Admin.forgetDevices releaser ds)
      ⟨ds.map placeOf, none, none⟩ := by
  induction ds with
  | nil =>
      rfl
  | cons d ds ih =>
      unfold Admin.forgetDevices
      refine (removePeerIfActive_tracks d rfl).attempt_bind ?_ fun _ _ h => by
        cases h.1.choose_spec
      rintro _ m ⟨_, rfl⟩
      refine Follows.attempt_bind (releaseAddress_tracks ⟨ds.map placeOf, none, none⟩
        releaser d.serverId d.allocatedIp rfl ?_ rfl rfl) ?_ fun _ _ h => by
          cases h.1.choose_spec
      · intro x hx
        exact List.mem_cons.mp hx
      · rintro _ m ⟨_, rfl⟩
        exact ih

/-- `delete_user` lists the devices of the account and is about to delete it. -/
theorem listDoomed_tracks (actorId targetId userId : Uuid) :
    Tracks i (.deleteUser actorId targetId) (fun r m => ∃ listed, r = .ok listed ∧
        m = ⟨[], some (userId, (listedDevices listed).map placeOf), none⟩)
      (trySql (.listForUser userId)) .idle := by
  refine ⟨suitsNote_of_none rfl, ?_⟩
  intro s μ ok hI hi hcond
  have howes : ∀ x ∈ (μ i).owes, x ∈ ([] : List (Uuid × IpAddr)) := by
    rw [hi]
    exact fun _ hx => hx
  cases ok with
  | false =>
      refine ⟨⟨[], some (userId, []), none⟩, ?_, .error .unavailable, rfl, rfl⟩
      refine hI.note howes ?_ (fun _ hnone => by cases hnone)
      intro u places hsome d hd huser hlive
      cases hsome
      have hnot := hcond rfl d hd huser
      rw [hlive] at hnot
      cases hnot
  | true =>
      refine ⟨⟨[], some (userId, (Db.Devices.listForUser userId s.db).map placeOf), none⟩, ?_,
        .ok (Db.Devices.listForUser userId s.db), rfl, rfl⟩
      refine hI.note howes ?_ (fun _ hnone => by cases hnone)
      intro u places hsome d hd huser hlive
      cases hsome
      refine List.mem_map_of_mem (List.mem_filter.mpr ⟨hd, ?_⟩)
      simpa [huser, Device.live] using hlive

/-- The account is deleted, and the listed addresses are owed. -/
theorem hardDelete_tracks (userId : Uuid) (places : List (Uuid × IpAddr)) :
    Tracks i op (fun r m => match r with
        | .ok _ => m = ⟨places, none, none⟩
        | .error _ => m = .idle)
      (sql (.hardDelete userId)) ⟨[], some (userId, places), none⟩ := by
  refine ⟨?_, ?_⟩
  · intro u places' hsome
    cases hsome
    rfl
  intro s μ ok hI hi _
  have hstays : Accounted s (Function.update μ i .idle) := by
    refine hI.note ?_ (fun _ _ hnone => by cases hnone) (fun _ hnone => by cases hnone)
    rw [hi]
    exact fun _ hx => hx
  cases ok with
  | false =>
      exact ⟨.idle, hstays, rfl⟩
  | true =>
      cases hrun : (DbCall.hardDelete userId).run s.db with
      | error e =>
          refine ⟨.idle, ?_, ?_⟩
          · simpa only [addressSystem, ApiCmd.sem, hrun] using hstays
          · simp only [addressSystem, ApiCmd.sem, hrun]
            rfl
      | ok out =>
          obtain ⟨_, db'⟩ := out
          refine ⟨⟨places, none, none⟩, ?_, ?_⟩
          · simp only [addressSystem, ApiCmd.sem, hrun]
            exact hI.hardDelete (by rw [hi]) (by rw [hi]) hrun
          · simp only [addressSystem, ApiCmd.sem, hrun]
            rfl

theorem deleteUser_tracks (actorId targetId : Uuid) :
    Tracks i (.deleteUser actorId targetId) (fun _ m => m = .idle)
      (Admin.deleteUser actorId targetId) .idle := by
  unfold Admin.deleteUser
  refine plain_first (requireAdmin_issues actorId) rfl (fun actor => ?_) fun _ => rfl
  refine plain_first (issues_failIf _ _) rfl (fun _ => ?_) fun _ => rfl
  refine plain_first (issues_sql trivial) rfl (fun found => ?_) fun _ => rfl
  refine plain_first (issues_okOr _ _) rfl (fun target => ?_) fun _ => rfl
  refine plain_first (keepLastAdmin_issues target) rfl (fun _ => ?_) fun _ => rfl
  refine (listDoomed_tracks actorId targetId target.id).attempt_bind ?_ fun _ _ h => by
    obtain ⟨_, herror, _⟩ := h
    cases herror
  rintro listed m ⟨_, hlisted, rfl⟩
  cases hlisted
  refine (hardDelete_tracks target.id _).attempt_bind ?_ fun _ _ h => h
  rintro _ m rfl
  have hrest : ∀ ds, Tracks i (.deleteUser actorId targetId) (fun _ m => m = .idle)
      (do Admin.forgetDevices .deleteUser ds; audit "admin.user_deleted" (some target.id))
      ⟨ds.map placeOf, none, none⟩ := by
    intro ds
    refine (forgetDevices_tracks .deleteUser ds).attempt_bind ?_ fun _ _ h => h
    rintro _ m rfl
    exact plain_tracks (issues_lift trivial) rfl fun _ => rfl
  cases listed with
  | error e =>
      exact hrest []
  | ok devices =>
      exact hrest devices

theorem deleteAccount_tracks (userId : Uuid) (now : Int) :
    Tracks i (.deleteAccount userId now) (fun _ m => m = .idle)
      (Me.deleteAccount userId now) .idle := by
  unfold Me.deleteAccount
  refine plain_first (currentUser_issues userId) rfl (fun user => ?_) fun _ => rfl
  have hsoft : Tracks i (.deleteAccount userId now) (fun _ m => m = .idle)
      (sql (.softDelete user.id now)) .idle := by
    refine ⟨suitsNote_of_none rfl, ?_⟩
    intro s μ ok hI hi hcond
    cases ok with
    | false =>
        refine ⟨.idle, ?_, rfl⟩
        rw [← hi, Function.update_eq_self]
        exact hI
    | true =>
        refine ⟨.idle, ?_, rfl⟩
        rw [← hi, Function.update_eq_self]
        cases hrun : (DbCall.softDelete user.id now).run s.db with
        | error e =>
            simpa only [addressSystem, ApiCmd.sem, hrun] using hI
        | ok out =>
            simp only [addressSystem, ApiCmd.sem, hrun]
            exact hI.softDelete hrun (hcond rfl)
  have hlist : Tracks i (.deleteAccount userId now)
      (fun r m => ∃ listed, r = .ok listed ∧ m = ⟨(listedDevices listed).map placeOf, none, none⟩)
      (trySql (.listForUser user.id)) .idle := by
    refine ⟨suitsNote_of_none rfl, ?_⟩
    intro s μ ok hI hi _
    have hnote : ∀ places, Accounted s (Function.update μ i ⟨places, none, none⟩) := by
      intro places
      refine hI.note ?_ (fun _ _ hnone => by cases hnone) (fun _ hnone => by cases hnone)
      rw [hi]
      exact fun _ hx => by cases hx
    cases ok with
    | false =>
        exact ⟨_, hnote _, .error .unavailable, rfl, rfl⟩
    | true =>
        exact ⟨_, hnote _, .ok (Db.Devices.listForUser user.id s.db), rfl, rfl⟩
  refine hsoft.attempt_bind ?_ fun _ _ h => h
  rintro _ m rfl
  refine plain_first (issues_lift trivial) rfl (fun _ => ?_) fun _ => rfl
  refine hlist.attempt_bind ?_ fun _ _ h => by
    obtain ⟨_, herror, _⟩ := h
    cases herror
  rintro listed m ⟨_, hlisted, rfl⟩
  cases hlisted
  cases listed with
  | error e =>
      rfl
  | ok devices =>
      exact forgetDevices_tracks .deleteAccount devices

/-- Every request that moves addresses settles its account. -/
theorem handler_tracks (hop : op.movesAddresses = true) :
    Tracks i op (fun _ m => m.Settled) op.handler .idle := by
  have hidle : ∀ {p : Handler Unit}, Tracks i op (fun _ m => m = .idle) p .idle →
      Tracks i op (fun _ m => m.Settled) p .idle := by
    intro p hp
    exact hp.mono fun _ m hm => hm ▸ ⟨rfl, rfl⟩
  cases op with
  | create userId body draw =>
      exact hidle (create_tracks userId body draw)
  | connect userId body wasOffline draw =>
      exact hidle (connect_tracks userId body wasOffline draw)
  | delete userId deviceId =>
      exact delete_tracks userId deviceId
  | revokeDevice actorId deviceId =>
      exact revokeDevice_tracks actorId deviceId
  | deleteUser actorId targetId =>
      exact hidle (deleteUser_tracks actorId targetId)
  | deleteAccount userId now =>
      exact hidle (deleteAccount_tracks userId now)
  | _ =>
      cases hop

end Requests

section Start

open Bootstrap

/-- A seeded allocator marks nothing but the reserved addresses and its seed. -/
theorem of_seeded_holds {cidr : Wg.IpNetwork} {seed : List IpAddr} {ip : IpAddr}
    (h : (Sys.seeded cidr seed).holds ip = true) : cidr.reserved ip = true ∨ ip ∈ seed := by
  have hfold : ∀ (seed : List IpAddr) (a : IpAllocator),
      (seed.foldl (fun a ip => (a.markAllocated ip).1) a).holds ip = true →
        a.holds ip = true ∨ ip ∈ seed := by
    intro seed
    induction seed with
    | nil =>
        intro a ha
        exact Or.inl ha
    | cons ip' seed ih =>
        intro a ha
        rcases ih _ ha with hold | hmem
        · rcases IpAllocator.of_holds_markAllocated hold with hold | rfl
          · exact Or.inl hold
          · exact Or.inr List.mem_cons_self
        · exact Or.inr (List.mem_cons_of_mem _ hmem)
  rcases hfold seed _ h with hnew | hmem
  · exact Or.inl (IpAllocator.reserved_of_holds_new hnew)
  · exact Or.inr hmem

theorem noLeak_congr {s s' : Sys} (h : NoLeak s) (hallocators : s'.allocators = s.allocators)
    (hdevices : s'.db.devices = s.db.devices) : NoLeak s' := by
  intro v a ip ha hholds
  rw [hallocators] at ha
  rcases h v a ip ha hholds with hres | hlive
  · exact Or.inl hres
  · refine Or.inr fun hvacant => hlive ?_
    intro d hd
    exact hvacant d (hdevices ▸ hd)

theorem noLeak_startCall {s : Sys} {c : ApiCmd} (hc : StartCall c) (ok : Bool) (h : NoLeak s) :
    NoLeak (c.sem ok s).1 := by
  cases c with
  | sql q =>
      cases ok with
      | false =>
          exact h
      | true =>
          cases hrun : q.run s.db with
          | error e =>
              simpa only [ApiCmd.sem, hrun] using h
          | ok out =>
              obtain ⟨r, db'⟩ := out
              simp only [ApiCmd.sem, hrun]
              exact noLeak_congr h rfl (devices_of_keeps hc hrun)
  | allocate _ | tryReserve _ _ | release _ _ _ | newAllocator _ _ _ =>
      exact hc.elim
  | getAllocator _ | wgShow | render =>
      exact h
  | addPeer _ _ _ _ | removePeer _ | bringUpWg | encrypt _ | audit _ _ =>
      cases ok <;> exact noLeak_congr h rfl rfl

/-- An allocator that is seeded from the stored devices marks only their addresses. -/
theorem noLeak_seed {s : Sys} (h : NoLeak s) (server : Server) :
    NoLeak (s.setAllocator server.id
      (Sys.seeded server.cidr (Db.Devices.allocatedIpsForServer server.id s.db))) := by
  intro v a ip ha hholds
  by_cases hv : v = server.id
  · subst hv
    have ha' : Sys.seeded server.cidr (Db.Devices.allocatedIpsForServer server.id s.db) = a := by
      simpa [Sys.setAllocator] using ha
    subst ha'
    rw [seeded_network]
    rcases of_seeded_holds hholds with hres | hmem
    · exact Or.inl hres
    · obtain ⟨d, hd, hip⟩ := List.mem_map.mp hmem
      obtain ⟨hd, hrow⟩ := List.mem_filter.mp hd
      simp only [Bool.and_eq_true, beq_iff_eq] at hrow
      exact Or.inr fun hvacant => hvacant d hd hrow.2 (by rw [placeOf, hrow.1, hip])
  · refine h v a ip ?_ hholds
    simpa [Sys.setAllocator, Function.update_of_ne hv] using ha

theorem noLeak_wp {α : Type} {p : Handler α} (hp : Issues StartCall p)
    {t : Sys × List Bool} (h : NoLeak t.1) :
    wp (Program.faulty ApiCmd.sem) p (fun t' _ => NoLeak t'.1) t := by
  have hcall : ∀ (c : ApiCmd) (t : Sys × List Bool), StartCall c → NoLeak t.1 →
      NoLeak (Program.faulty ApiCmd.sem c t).1.1 :=
    fun _ t hc ht => noLeak_startCall hc (t.2.headD true) ht
  exact Program.Calls.run_keeps hcall hp h

theorem buildAllocators_noLeak (servers : List Server) {t : Sys × List Bool} (h : NoLeak t.1) :
    wp (Program.faulty ApiCmd.sem) (buildAllocators servers) (fun t' _ => NoLeak t'.1) t := by
  induction servers generalizing t with
  | nil =>
      exact h
  | cons server servers ih =>
      unfold buildAllocators
      refine Attempt.wp_bind (Attempt.wp_lift ?_)
      obtain ⟨s, flags⟩ := t
      cases hflag : flags.headD true with
      | false =>
          simp only [Program.faulty, hflag, ApiCmd.sem]
          exact h
      | true =>
          simp only [Program.faulty, hflag, ApiCmd.sem, DbCall.run, DbCall.read]
          refine Attempt.wp_bind (Attempt.wp_lift ?_)
          exact ih (noLeak_seed h server)

theorem boot_noLeak (cfg : Config) {t : Sys × List Bool} (h : NoLeak t.1) :
    wp (Program.faulty ApiCmd.sem) (boot cfg) (fun t' _ => NoLeak t'.1) t := by
  unfold boot
  refine Attempt.wp_bind_of (noLeak_wp (ensureAdmin_issues cfg) h) ?_ fun _ _ h => h
  intro t₁ _ h₁
  refine Attempt.wp_bind_of (noLeak_wp (ensureDefaultServer_issues cfg) h₁) ?_ fun _ _ h => h
  intro t₂ _ h₂
  refine Attempt.wp_bind_of (noLeak_wp ensureWgInterfaceUp_issues h₂) ?_ fun _ _ h => h
  intro t₃ _ h₃
  have hbuild : wp (Program.faulty ApiCmd.sem) buildIpAllocators (fun t' _ => NoLeak t'.1) t₃ := by
    unfold buildIpAllocators
    have hlist : Issues StartCall (sql .listActiveServers) := issues_sql trivial
    refine Attempt.wp_bind_of (noLeak_wp hlist h₃) ?_ fun _ _ h => h
    intro t _ ht
    exact buildAllocators_noLeak _ ht
  refine Attempt.wp_bind_of hbuild ?_ fun _ _ h => h
  intro t₄ _ h₄
  exact noLeak_wp reconcilePeers_issues h₄

/-- A start marks the reserved addresses and those of the live devices. -/
theorem noLeak_rebooted (g : Bootstrap.Config × List Bool) (s : Sys) : NoLeak (rebooted g s) := by
  have hstopped : ∀ t : Sys, t.allocators = (fun _ => none) → NoLeak t := by
    intro t ht v a ip ha
    rw [ht] at ha
    cases ha
  have hboot := boot_noLeak g.1 (t := (s.stopped g.1, g.2)) (hstopped _ rfl)
  unfold Attempt.wp at hboot
  unfold rebooted
  rcases hexec : (Bootstrap.boot g.1).exec (Program.faulty ApiCmd.sem) (s.stopped g.1, g.2)
    with ⟨⟨t, flags⟩, e | u⟩
  · exact hstopped _ rfl
  · rw [hexec] at hboot
    exact hboot

theorem accounted_of_noLeak {s : Sys} (h : NoLeak s) : Accounted s fun _ => .idle where
  marked := by
    intro v a ip ha hholds
    rcases h v a ip ha hholds with hres | hlive
    · exact Or.inl hres
    · exact Or.inr (Or.inl hlive)
  listed := by
    intro i userId places hnone
    cases hnone
  read := by
    intro i x hnone
    cases hnone

end Start

/-- The notes of a pool of requests. -/
abbrev Balanced (p : Pool Sys Op ApiCmd ApiCmd.Reply (Except ApiError Unit))
    (μ : Nat → LeakNote) : Prop :=
  Noted addressSystem Accounted SuitsNote CallAccounts (fun _ _ m => m.Settled) .idle p μ

section Runs

variable {p : Pool Sys Op ApiCmd ApiCmd.Reply (Except ApiError Unit)} {μ : Nat → LeakNote}

/-- A request without a next call owes nothing. -/
theorem Noted.settledNote (h : Balanced p μ) {i : Nat} (hi : nextCall p i = none) :
    (μ i).Settled := by
  rcases h.settled hi with ⟨_, _, hm⟩ | hm
  · exact hm
  · rw [hm]
    exact ⟨rfl, rfl⟩

/-- The condition on the next calls becomes one on the notes. -/
theorem callAccounts_of_keepsTrack (h : Balanced p μ) {i : Nat} {ok : Bool} {op : Op} {c : ApiCmd}
    (hcond : CallKeepsTrack p ok op c) : CallAccounts i op c ok p.shared μ := by
  cases c with
  | sql q =>
      cases q with
      | createDevice id new =>
          intro hok j places hdeleting
          cases hj : nextCall p j with
          | none =>
              have hnone := (Noted.settledNote h hj).2
              rw [hdeleting] at hnone
              cases hnone
          | some call =>
              obtain ⟨op', c'⟩ := call
              have hcall := h.suits hj _ _ hdeleting
              subst hcall
              have hnot := hcond hok j (lt_of_nextCall hj) _ hj
              simp [Deletes] at hnot
      | _ =>
          exact hcond
  | _ =>
      exact hcond

end Runs

/--
In every interleaving of device and account requests and starts that meets the
condition, whenever no request is in flight every marked address is reserved or
belongs to a live device.
-/
theorem no_address_leak (db : Db) (es : List (PoolEvent Op (Bootstrap.Config × List Bool)))
    (hrun : Along (poolStep addressSystem) KeepsTrack (idle db) es) :
    Always (poolStep addressSystem) (fun p => Quiescent p → NoLeak p.shared) (idle db) es := by
  refine always_of_along (fun p => ∃ μ, Balanced p μ) ?_ ?_ ?_ hrun
  · rintro p e ⟨μ, hp⟩ he
    refine noted_step ?_ hp ?_ ?_ ?_
    · rintro i op rfl
      exact handler_tracks he
    · rintro i ok op c rfl hc
      exact callAccounts_of_keepsTrack hp (he op c hc)
    · rintro i op q rfl
      exact he.elim
    · rintro g rfl
      exact accounted_of_noLeak (noLeak_rebooted g p.shared)
  · rintro p ⟨μ, hp⟩ hquiet v a ip ha hholds
    rcases hp.inv.marked v a ip ha hholds with hres | hlive | ⟨i, howes⟩
    · exact Or.inl hres
    · exact Or.inr hlive
    · rw [(Noted.settledNote hp (hquiet i)).1] at howes
      cases howes
  · refine ⟨_, noted_init (accounted_of_noLeak ?_)⟩
    intro v a ip ha
    cases ha

/-- Two devices are created at the same time, one of them is revoked by its owner
and the account of the other one is deleted. -/
def sampleReturns : List (PoolEvent Op (Bootstrap.Config × List Bool)) :=
  PoolEvent.restart (sampleConfig, []) ::
    PoolEvent.spawn (Op.create 2 ⟨"laptop", none, none⟩ ⟨20, "private", sampleKey⟩) ::
      List.replicate 7 (PoolEvent.step 0 true) ++
        serveAll 1
          [Op.create 2 ⟨"phone", none, none⟩ ⟨21, "other", sampleOtherKey⟩, Op.delete 2 21] ++
        List.replicate 8 (PoolEvent.step 0 true) ++ serveAll 3 [Op.deleteUser 1 2]

theorem no_address_leak_sample :
    NoLeak (runEvents (poolStep addressSystem) (idle sampleDb) sampleReturns).shared ∧
      (runEvents (poolStep addressSystem) (idle sampleDb) sampleReturns).shared.db.devices = [] :=
  ⟨(no_address_leak sampleDb sampleReturns (by decide)).last (by decide),
    by decide⟩

/-- A marked address that is not reserved and that no live device has. -/
theorem not_noLeak {s : Sys} (x : Uuid × IpAddr)
    (hmarked : (s.allocators x.1).any (fun a => a.holds x.2 && !a.network.reserved x.2) = true)
    (hvacant : Vacant s.db x) : ¬ NoLeak s := by
  intro h
  obtain ⟨a, ha, hmark⟩ := (Option.any_eq_true _ _).mp hmarked
  simp only [Bool.and_eq_true, Bool.not_eq_true'] at hmark
  rcases h x.1 a x.2 ha hmark.1 with hres | hlive
  · rw [hmark.2] at hres
    cases hres
  · exact hlive hvacant

/-- A device is created, and its owner deletes the account. -/
theorem delete_account_leaks_address :
    Quiescent
        (runEvents (poolStep addressSystem) (idle sampleDb)
          (.restart (sampleConfig, []) ::
            serveAll 0
              [.create 2 ⟨"laptop", none, none⟩ ⟨20, "private", sampleKey⟩,
                .deleteAccount 2 100])) ∧
      ¬ NoLeak
        (runEvents (poolStep addressSystem) (idle sampleDb)
          (.restart (sampleConfig, []) ::
            serveAll 0
              [.create 2 ⟨"laptop", none, none⟩ ⟨20, "private", sampleKey⟩,
                .deleteAccount 2 100])).shared :=
  ⟨by decide, not_noLeak (10, .v4 0x0A000002#32) (by decide) (by decide)⟩

end Api
end ZeroVpn
