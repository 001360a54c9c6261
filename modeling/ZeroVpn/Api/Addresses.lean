import ZeroVpn.Api.Maintenance

/-!
# Device addresses and the in-memory allocators

The allocator of a server is a shadow copy of the addresses that its stored
devices occupy.  `Addressed` is what keeps the two in line: an address is
marked if a live row has it or if a request was handed it, and no address has
two such holders.  One lemma for each kind of call says how it keeps this.
-/

namespace ZeroVpn

open Library

namespace Api

open Db (Uuid Device Server DbError)
open Wg (IpAddr IpNetwork IpAllocator)

/-- Where a device lives: its server and its address there. -/
def placeOf (d : Device) : Uuid × IpAddr := (d.serverId, d.allocatedIp)

/-- No live device has the address. -/
def Vacant (db : Db) (x : Uuid × IpAddr) : Prop :=
  ∀ d ∈ db.devices, d.live = true → placeOf d ≠ x

instance (db : Db) (x : Uuid × IpAddr) : Decidable (Vacant db x) :=
  inferInstanceAs (Decidable (∀ d ∈ db.devices, _ → _))

/-- The address of every live device is marked in the allocator of its server. -/
def AllocatorsSound (s : Sys) : Prop :=
  ∀ d ∈ s.db.devices, d.live = true →
    ∀ a, s.allocators d.serverId = some a → a.holds d.allocatedIp = true

instance (s : Sys) : Decidable (AllocatorsSound s) :=
  decidable_of_iff
    (∀ d ∈ s.db.devices, d.live = true →
      (s.allocators d.serverId).all (fun a => a.holds d.allocatedIp) = true)
    (by simp only [AllocatorsSound, Option.all_eq_true])

/-- What `allocate` and `try_reserve` hand out is the address of no live
device. -/
def HandsOutVacant (s : Sys) : Prop :=
  ∀ v a ip, s.allocators v = some a →
    a.allocate.2 = some (.ok ip) ∨ (a.tryReserve ip).2 = .ok () → Vacant s.db (v, ip)

/-- Every live address lies in the network of its server. -/
def InNetwork (db : Db) : Prop :=
  ∀ d ∈ db.devices, d.live = true →
    ∃ v ∈ db.servers, v.id = d.serverId ∧ v.cidr.contains d.allocatedIp = true

instance (db : Db) : Decidable (InNetwork db) :=
  inferInstanceAs (Decidable (∀ d ∈ db.devices, _ → _))

/-- The address is marked in an existing allocator. -/
def Held (s : Sys) (x : Uuid × IpAddr) : Prop :=
  ∃ a, s.allocators x.1 = some a ∧ a.holds x.2 = true

/-- Every marked address has one holder, and every holder a marked address. -/
structure Addressed (s : Sys) : Prop where
  sound : AllocatorsSound s
  inNetwork : InNetwork s.db
  /-- An allocator serves the network of its server. -/
  network : ∀ v a, s.allocators v = some a →
    ∃ server ∈ s.db.servers, server.id = v ∧ server.cidr = a.network
  flight_held : ∀ x ∈ s.inFlight, Held s x
  flight_vacant : ∀ x ∈ s.inFlight, Vacant s.db x
  flight_nodup : s.inFlight.Nodup

theorem handsOutVacant_of_sound {s : Sys} (h : AllocatorsSound s) : HandsOutVacant s := by
  intro v a ip ha hout d hd hlive hplace
  obtain ⟨rfl, rfl⟩ := Prod.mk.injEq .. ▸ hplace
  have hmarked := h d hd hlive a ha
  have hfree : a.holds d.allocatedIp = false := by
    rcases hout with hout | hout
    · rcases a.allocate_spec.2 with ⟨ip, hip, hfree, _⟩ | ⟨hnone, _⟩
      · rw [hip] at hout
        cases hout
        exact hfree
      · exact absurd hout (hnone _)
    · rcases (a.tryReserve_spec d.allocatedIp).2 with ⟨_, hfree, _⟩ | ⟨hnone, _⟩
      · exact hfree
      · exact absurd hout hnone
  rw [hmarked] at hfree
  cases hfree

/-- A statement that adds no live address and keeps the servers' networks. -/
structure AddsNoAddress (db db' : Db) : Prop where
  devices : ∀ d' ∈ db'.devices, d'.live = true →
    ∃ d ∈ db.devices, d.live = true ∧ placeOf d = placeOf d'
  servers : ∀ v ∈ db.servers, ∃ v' ∈ db'.servers, v'.id = v.id ∧ v'.cidr = v.cidr

theorem AddsNoAddress.refl (db : Db) : AddsNoAddress db db :=
  ⟨fun d hd hlive => ⟨d, hd, hlive, rfl⟩, fun v hv => ⟨v, hv, rfl, rfl⟩⟩

theorem AddsNoAddress.vacant {db db' : Db} (h : AddsNoAddress db db')
    {x : Uuid × IpAddr} (hx : Vacant db x) : Vacant db' x := by
  intro d' hd' hlive' hplace
  obtain ⟨d, hd, hlive, hsame⟩ := h.devices d' hd' hlive'
  exact hx d hd hlive (hsame.trans hplace)

section Steps

variable {s : Sys}

theorem Addressed.addsNoAddress (h : Addressed s) {db' : Db}
    (hdb : AddsNoAddress s.db db') :
    Addressed { s with db := db' } where
  sound := by
    intro d' hd' hlive' a ha
    obtain ⟨d, hd, hlive, hsame⟩ := hdb.devices d' hd' hlive'
    obtain ⟨hserver, hip⟩ := Prod.mk.injEq .. ▸ hsame
    rw [← hserver] at ha
    rw [← hip]
    exact h.sound d hd hlive a ha
  inNetwork := by
    intro d' hd' hlive'
    obtain ⟨d, hd, hlive, hsame⟩ := hdb.devices d' hd' hlive'
    obtain ⟨hserver, hip⟩ := Prod.mk.injEq .. ▸ hsame
    obtain ⟨v, hv, hid, hin⟩ := h.inNetwork d hd hlive
    obtain ⟨v', hv', hid', hcidr⟩ := hdb.servers v hv
    refine ⟨v', hv', hid'.trans (hid.trans hserver), ?_⟩
    rw [hcidr, ← hip]
    exact hin
  network := by
    intro v a ha
    obtain ⟨server, hmem, hid, hcidr⟩ := h.network v a ha
    obtain ⟨server', hmem', hid', hcidr'⟩ := hdb.servers server hmem
    exact ⟨server', hmem', hid'.trans hid, hcidr'.trans hcidr⟩
  flight_held := h.flight_held
  flight_vacant := fun x hx => hdb.vacant (h.flight_vacant x hx)
  flight_nodup := h.flight_nodup

/-- The marks that an allocator gained or kept are still there. -/
theorem held_setAllocator {v : Uuid} {a' : IpAllocator} {x : Uuid × IpAddr}
    (hkeep : x.1 = v → a'.holds x.2 = true) (hx : x.1 ≠ v → Held s x) :
    Held (s.setAllocator v a') x := by
  unfold Held Sys.setAllocator
  by_cases hv : x.1 = v
  · exact ⟨a', by simp [hv], hkeep hv⟩
  · obtain ⟨a, ha, hholds⟩ := hx hv
    exact ⟨a, by simpa [Function.update_of_ne hv] using ha, hholds⟩

/-- Replacing an allocator by one with at least the marks that are needed. -/
theorem Addressed.setAllocator (h : Addressed s) {v : Uuid} {a' : IpAllocator}
    {flight : List (Uuid × IpAddr)}
    (hnetwork : ∃ server ∈ s.db.servers, server.id = v ∧ server.cidr = a'.network)
    (hlive : ∀ d ∈ s.db.devices, d.live = true → d.serverId = v →
      a'.holds d.allocatedIp = true)
    (hflight : ∀ x ∈ flight, (x ∈ s.inFlight ∧ (x.1 = v → a'.holds x.2 = true)) ∨
      (x.1 = v ∧ a'.holds x.2 = true ∧ Vacant s.db x))
    (hnodup : flight.Nodup) :
    Addressed { s.setAllocator v a' with inFlight := flight } where
  sound := by
    intro d hd hdlive b hb
    by_cases hv : d.serverId = v
    · have hb' : b = a' := by
        simpa [Sys.setAllocator, hv] using hb.symm
      rw [hb']
      exact hlive d hd hdlive hv
    · refine h.sound d hd hdlive b ?_
      simpa [Sys.setAllocator, Function.update_of_ne hv] using hb
  inNetwork := h.inNetwork
  network := by
    intro w b hb
    by_cases hw : w = v
    · have hb' : b = a' := by
        simpa [Sys.setAllocator, hw] using hb.symm
      rw [hb', hw]
      exact hnetwork
    · refine h.network w b ?_
      simpa [Sys.setAllocator, Function.update_of_ne hw] using hb
  flight_held := by
    intro x hx
    refine held_setAllocator ?_ ?_
    · intro hv
      rcases hflight x hx with ⟨_, hkeep⟩ | ⟨_, hnew, _⟩
      · exact hkeep hv
      · exact hnew
    · intro hv
      rcases hflight x hx with ⟨hold, _⟩ | ⟨heq, _, _⟩
      · exact h.flight_held x hold
      · exact absurd heq hv
  flight_vacant := by
    intro x hx
    rcases hflight x hx with ⟨hold, _⟩ | ⟨_, _, hvacant⟩
    · exact h.flight_vacant x hold
    · exact hvacant
  flight_nodup := hnodup

/-- An allocator hands out an address it did not hold. -/
theorem Addressed.take (h : Addressed s) {v : Uuid} {a a' : IpAllocator} {ip : IpAddr}
    (ha : s.allocators v = some a) (hnetwork : a'.network = a.network)
    (hfree : a.holds ip = false)
    (hholds : ∀ ip', a'.holds ip' = true ↔ a.holds ip' = true ∨ ip' = ip) :
    Addressed { s.setAllocator v a' with inFlight := (v, ip) :: s.inFlight } ∧
      (v, ip) ∉ s.inFlight := by
  have hmarked : ∀ x ∈ s.inFlight, x.1 = v → a.holds x.2 = true := by
    intro x hx hv
    obtain ⟨b, hb, hbx⟩ := h.flight_held x hx
    rw [hv, ha] at hb
    cases hb
    exact hbx
  have hvacant : Vacant s.db (v, ip) := by
    intro d hd hlive hplace
    obtain ⟨rfl, rfl⟩ := Prod.mk.injEq .. ▸ hplace
    rw [h.sound d hd hlive a ha] at hfree
    cases hfree
  have hnew : (v, ip) ∉ s.inFlight := by
    intro hmem
    rw [hmarked _ hmem rfl] at hfree
    cases hfree
  refine ⟨h.setAllocator (hnetwork ▸ h.network v a ha) ?_ ?_
    (List.nodup_cons.mpr ⟨hnew, h.flight_nodup⟩), hnew⟩
  · intro d hd hlive hserver
    rw [hholds]
    exact Or.inl (h.sound d hd hlive a (hserver ▸ ha))
  · intro x hx
    rcases List.mem_cons.mp hx with rfl | hx
    · exact Or.inr ⟨rfl, (hholds ip).mpr (Or.inr rfl), hvacant⟩
    · refine Or.inl ⟨hx, ?_⟩
      intro hv
      exact (hholds x.2).mpr (Or.inl (hmarked x hx hv))

/-- An allocator gives up the mark of an address without a holder. -/
theorem Addressed.release (h : Addressed s) {v : Uuid} {a : IpAllocator} {ip : IpAddr}
    {flight : List (Uuid × IpAddr)}
    (ha : s.allocators v = some a) (hvacant : Vacant s.db (v, ip))
    (hsub : flight.Sublist s.inFlight) (hout : (v, ip) ∉ flight) :
    Addressed { s.setAllocator v (a.release ip).1 with inFlight := flight } := by
  obtain ⟨hnetwork, hkeep⟩ := a.release_spec ip
  refine h.setAllocator (hnetwork ▸ h.network v a ha) ?_ ?_ (h.flight_nodup.sublist hsub)
  · intro d hd hlive hserver
    refine hkeep _ (h.sound d hd hlive a (hserver ▸ ha)) ?_
    intro hip
    exact hvacant d hd hlive (by rw [placeOf, hserver, hip])
  · intro x hx
    have hmem := hsub.subset hx
    refine Or.inl ⟨hmem, ?_⟩
    intro hv
    obtain ⟨b, hb, hbx⟩ := h.flight_held x hmem
    rw [hv, ha] at hb
    cases hb
    refine hkeep _ hbx ?_
    intro hip
    exact hout (by rw [← hv, ← hip]; exact hx)

/-- A row is stored under an address in flight. -/
theorem Addressed.insert (h : Addressed s) {db' : Db} (new : Device)
    (hdevices : db'.devices = s.db.devices ++ [new])
    (hservers : db'.servers = s.db.servers)
    (hflight : placeOf new ∈ s.inFlight) :
    Addressed { s with db := db', inFlight := s.inFlight.erase (placeOf new) } := by
  obtain ⟨a, ha, hholds⟩ := h.flight_held _ hflight
  have hsub : (s.inFlight.erase (placeOf new)).Sublist s.inFlight := List.erase_sublist
  constructor
  case sound =>
    intro d hd hlive b hb
    rw [hdevices, List.mem_append, List.mem_singleton] at hd
    rcases hd with hd | rfl
    · exact h.sound d hd hlive b hb
    · have hab : some a = some b := ha.symm.trans hb
      cases hab
      exact hholds
  case inNetwork =>
    intro d hd hlive
    rw [hdevices, List.mem_append, List.mem_singleton] at hd
    dsimp only
    rw [hservers]
    rcases hd with hd | rfl
    · exact h.inNetwork d hd hlive
    · obtain ⟨server, hmem, hid, hcidr⟩ := h.network _ a ha
      refine ⟨server, hmem, hid, ?_⟩
      rw [hcidr]
      exact IpAllocator.network_contains_of_holds hholds
  case network =>
    dsimp only
    rw [hservers]
    exact h.network
  case flight_held =>
    intro x hx
    exact h.flight_held x (hsub.subset hx)
  case flight_vacant =>
    intro x hx d hd hlive
    rw [hdevices, List.mem_append, List.mem_singleton] at hd
    rcases hd with hd | rfl
    · exact h.flight_vacant x (hsub.subset hx) d hd hlive
    · rintro rfl
      exact h.flight_nodup.not_mem_erase hx
  case flight_nodup =>
    exact h.flight_nodup.sublist hsub

end Steps

section Calls

variable {s : Sys}

/-- The statements, besides the insert of a device, that the operations on
addresses and the start of the process issue. -/
def KeepsAddresses : DbCall → Prop
  | .setStatus _ _ status => status = .revoked
  | .createDevice .. | .adminSetStatus .. | .adminSetRole .. | .setPrivateKeyEncrypted ..
  | .updatePublicKey ..
  | .resetDueUsers .. | .resetDueDevices .. | .resumeCandidates | .pauseCandidates
  | .markAutoPaused _ | .markResumed _ => False
  | _ => True

/-- An update of devices that keeps their places and revives none. -/
theorem addsNoAddress_updateDevices {p : Device → Bool} {f : Device → Device} {n : Nat}
    {db db' : Db} (h : Db.updateDevices p f db = .ok (n, db'))
    (hplace : ∀ d, placeOf (f d) = placeOf d)
    (hlive : ∀ d, (f d).live = true → d.live = true) :
    AddsNoAddress db db' := by
  obtain ⟨htables, _⟩ := Db.updateDevices_eq_ok h
  constructor
  · intro d' hd' hlive'
    rw [htables, mem_updateWhere] at hd'
    obtain ⟨d, hd, rfl⟩ := hd'
    by_cases hp : p d = true
    · rw [if_pos hp] at hlive' ⊢
      exact ⟨d, hd, hlive d hlive', (hplace d).symm⟩
    · rw [if_neg hp] at hlive' ⊢
      exact ⟨d, hd, hlive', rfl⟩
  · intro v hv
    rw [htables]
    exact ⟨v, hv, rfl, rfl⟩

/-- A statement that leaves devices and servers alone. -/
theorem addsNoAddress_of_eq {db db' : Db} (hdevices : db'.devices = db.devices)
    (hservers : db'.servers = db.servers) : AddsNoAddress db db' := by
  constructor
  · rw [hdevices]
    intro d hd hlive
    exact ⟨d, hd, hlive, rfl⟩
  · rw [hservers]
    intro v hv
    exact ⟨v, hv, rfl, rfl⟩

/-- An update of servers that keeps their networks. -/
theorem addsNoAddress_updateServers {p : Server → Bool} {f : Server → Server} {u : Unit}
    {db db' : Db} (h : Db.updateServers p f db = .ok (u, db'))
    (hf : ∀ v, (f v).id = v.id ∧ (f v).cidr = v.cidr) :
    AddsNoAddress db db' := by
  have htables := Db.updateServers_eq_ok h
  constructor
  · rw [htables]
    intro d hd hlive
    exact ⟨d, hd, hlive, rfl⟩
  · intro v hv
    rw [htables]
    by_cases hp : p v = true
    · exact ⟨f v, mem_updateWhere_of_pos hv hp, hf v⟩
    · exact ⟨v, mem_updateWhere_of_not hv (by simpa using hp), rfl, rfl⟩

theorem addsNoAddress_updateUsers {p : Db.User → Bool} {f : Db.User → Db.User} {n : Nat}
    {db db' : Db} (h : Db.updateUsers p f db = .ok (n, db')) : AddsNoAddress db db' := by
  obtain ⟨htables, _⟩ := Db.updateUsers_eq_ok h
  refine addsNoAddress_of_eq ?_ ?_
  · rw [htables]
  · rw [htables]

theorem addsNoAddress_softDelete {id : Uuid} {now : Int} {u : Unit} {db db' : Db}
    (h : Db.Users.softDelete id now db = .ok (u, db')) : AddsNoAddress db db' := by
  unfold Db.Users.softDelete at h
  obtain ⟨_, db₁, husers, h⟩ := Db.tx_bind_eq_ok.mp h
  obtain ⟨_, db₂, hdevices, h⟩ := Db.tx_bind_eq_ok.mp h
  cases h
  have hfirst := addsNoAddress_updateUsers husers
  have hsecond := addsNoAddress_updateDevices hdevices (fun _ => rfl) (by simp [Device.live])
  constructor
  · intro d' hd' hlive'
    obtain ⟨d, hd, hlive, hplace⟩ := hsecond.devices d' hd' hlive'
    obtain ⟨e, he, helive, heplace⟩ := hfirst.devices d hd hlive
    exact ⟨e, he, helive, heplace.trans hplace⟩
  · intro v hv
    obtain ⟨v₁, hv₁, hid₁, hcidr₁⟩ := hfirst.servers v hv
    obtain ⟨v₂, hv₂, hid₂, hcidr₂⟩ := hsecond.servers v₁ hv₁
    exact ⟨v₂, hv₂, hid₂.trans hid₁, hcidr₂.trans hcidr₁⟩

theorem addsNoAddress_hardDelete {id : Uuid} {u : Unit} {db db' : Db}
    (h : Db.Users.hardDelete id db = .ok (u, db')) : AddsNoAddress db db' := by
  have htables := (Db.write_return_eq_ok h).1
  constructor
  · intro d hd hlive
    rw [htables] at hd
    exact ⟨d, (List.mem_filter.mp hd).1, hlive, rfl⟩
  · intro v hv
    rw [htables]
    exact ⟨v, hv, rfl, rfl⟩

theorem addsNoAddress_createServer {id r : Uuid} {now : Int} {new : Db.Servers.NewServer}
    {db db' : Db} (h : Db.Servers.create id now new db = .ok (r, db')) :
    AddsNoAddress db db' := by
  have htables := (Db.write_return_eq_ok h).1
  constructor
  · rw [htables]
    intro d hd hlive
    exact ⟨d, hd, hlive, rfl⟩
  · intro v hv
    rw [htables]
    exact ⟨v, List.mem_append_left _ hv, rfl, rfl⟩

/-- Each of these statements adds no live address. -/
theorem addsNoAddress_of_keeps {q : DbCall} {r : q.Reply} {db db' : Db}
    (hq : KeepsAddresses q) (h : q.run db = .ok (r, db')) : AddsNoAddress db db' := by
  cases q with
  | findUser _ | findUserByEmail _ | deviceLimit _ | monthQuota _ | countActiveAdmins
  | listForUser _ | findForUser _ _ | getById _ | allocatedIpsForServer _ | activePeers
  | listActiveServers | findServer _ | defaultKeyState =>
      cases h
      exact .refl _
  | createDevice _ _ | adminSetStatus _ _ | adminSetRole _ _ | setPrivateKeyEncrypted _ _ _
  | updatePublicKey _ _ _ | resetDueUsers _ _ | resetDueDevices _ _ | resumeCandidates
  | pauseCandidates | markAutoPaused _ | markResumed _ =>
      exact hq.elim
  | createUser _ _ _ _ =>
      have htables := (Db.write_return_eq_ok h).1
      refine addsNoAddress_of_eq ?_ ?_
      · rw [htables]
      · rw [htables]
  | promoteBootstrapAdmin _ =>
      exact addsNoAddress_updateUsers h
  | softDelete _ _ =>
      exact addsNoAddress_softDelete h
  | hardDelete _ =>
      exact addsNoAddress_hardDelete h
  | setStatus _ _ _ =>
      subst hq
      exact addsNoAddress_updateDevices h (fun _ => rfl) (by simp [Device.live])
  | setQuota _ _ =>
      exact addsNoAddress_updateDevices h (fun _ => rfl) (fun _ hlive => hlive)
  | createServer _ _ _ =>
      exact addsNoAddress_createServer h
  | setServerPrivateKey _ _ =>
      exact addsNoAddress_updateServers h (fun _ => ⟨rfl, rfl⟩)
  | setKeypair _ _ _ =>
      exact addsNoAddress_updateServers h (fun _ => ⟨rfl, rfl⟩)

/-- The statements that leave the devices alone. -/
def KeepsDevices : DbCall → Prop
  | .softDelete .. | .hardDelete _ | .setStatus .. | .setQuota .. => False
  | q => KeepsAddresses q

theorem devices_of_keeps {q : DbCall} {r : q.Reply} {db db' : Db} (hq : KeepsDevices q)
    (h : q.run db = .ok (r, db')) : db'.devices = db.devices := by
  cases q with
  | findUser _ | findUserByEmail _ | deviceLimit _ | monthQuota _ | countActiveAdmins
  | listForUser _ | findForUser _ _ | getById _ | allocatedIpsForServer _ | activePeers
  | listActiveServers | findServer _ | defaultKeyState =>
      cases h
      rfl
  | createDevice _ _ | adminSetStatus _ _ | adminSetRole _ _ | setPrivateKeyEncrypted _ _ _
  | updatePublicKey _ _ _ | resetDueUsers _ _ | resetDueDevices _ _ | resumeCandidates
  | pauseCandidates | markAutoPaused _ | markResumed _ | softDelete _ _ | hardDelete _
  | setStatus _ _ _ | setQuota _ _ =>
      exact hq.elim
  | createUser _ _ _ _ | createServer _ _ _ =>
      rw [(Db.write_return_eq_ok h).1]
  | promoteBootstrapAdmin _ =>
      rw [(Db.updateUsers_eq_ok h).1]
  | setServerPrivateKey _ _ | setKeypair _ _ _ =>
      rw [Db.updateServers_eq_ok h]

/-- The calls that neither take nor store nor give back an address. -/
def Harmless : ApiCmd → Prop
  | .sql q => KeepsAddresses q
  | .allocate _ | .tryReserve .. | .release .. | .newAllocator .. => False
  | _ => True

/-- The calls that leave the allocators alone and keep every device where it is. -/
def Plain : ApiCmd → Prop
  | .sql q =>
      match q with
      | .findUser _ | .findUserByEmail _ | .deviceLimit _ | .monthQuota _ | .countActiveAdmins
      | .listForUser _ | .findForUser .. | .getById _ | .allocatedIpsForServer _ | .activePeers
      | .listActiveServers | .findServer _ | .defaultKeyState | .setQuota .. => True
      | _ => False
  | c => Harmless c

theorem harmless_of_plain {c : ApiCmd} (h : Plain c) : Harmless c := by
  cases c with
  | sql q =>
      cases q <;> first | exact h.elim | trivial
  | _ =>
      exact h

/-- The calls of a start, besides the seeding of the allocators. -/
def StartCall : ApiCmd → Prop
  | .sql q => KeepsDevices q
  | c => Harmless c

theorem harmless_of_startCall {c : ApiCmd} (h : StartCall c) : Harmless c := by
  cases c with
  | sql q =>
      cases q <;> first | exact h | exact h.elim
  | _ =>
      exact h

theorem Addressed.harmless (h : Addressed s) {c : ApiCmd} (hc : Harmless c) (ok : Bool) :
    Addressed (c.sem ok s).1 ∧ (c.sem ok s).1.inFlight = s.inFlight ∧
      (c.sem ok s).1.allocators = s.allocators := by
  cases c with
  | sql q =>
      cases ok with
      | false =>
          exact ⟨h, rfl, rfl⟩
      | true =>
          have hflight : s.inFlightAfter q = s.inFlight := by
            cases q with
            | createDevice _ _ =>
                exact hc.elim
            | _ =>
                rfl
          cases hrun : q.run s.db with
          | error e =>
              simp only [ApiCmd.sem, hrun]
              exact ⟨h, trivial, trivial⟩
          | ok out =>
              obtain ⟨r, db'⟩ := out
              simp only [ApiCmd.sem, hrun, hflight]
              exact ⟨h.addsNoAddress (addsNoAddress_of_keeps hc hrun), trivial, trivial⟩
  | allocate _ | tryReserve _ _ | release _ _ _ | newAllocator _ _ _ =>
      exact hc.elim
  | getAllocator _ | wgShow | render =>
      exact ⟨h, rfl, rfl⟩
  | addPeer _ _ _ _ | removePeer _ | bringUpWg | encrypt _ | audit _ _ =>
      have hsame : ∀ t : Sys, t.db = s.db → t.allocators = s.allocators →
          t.inFlight = s.inFlight → Addressed t := by
        rintro ⟨db, allocators, interface, up, inFlight⟩ rfl rfl rfl
        exact ⟨h.sound, h.inNetwork, h.network, h.flight_held, h.flight_vacant, h.flight_nodup⟩
      cases ok with
      | false =>
          exact ⟨h, rfl, rfl⟩
      | true =>
          exact ⟨hsame _ rfl rfl rfl, rfl, rfl⟩

end Calls

section Start

open Bootstrap
open Library.Attempt (wp Issues)

theorem seeded_network (cidr : IpNetwork) (seed : List IpAddr) :
    (Sys.seeded cidr seed).network = cidr := by
  have hfold : ∀ a : IpAllocator,
      (seed.foldl (fun a ip => (a.markAllocated ip).1) a).network = a.network := by
    induction seed with
    | nil =>
        intro a
        rfl
    | cons ip seed ih =>
        intro a
        rw [List.foldl_cons, ih]
        exact (a.markAllocated_spec ip).1
  unfold Sys.seeded
  rw [hfold, IpAllocator.network_new]

/-- A seeded allocator holds every address of its seed that lies in the
network. -/
theorem seeded_holds {cidr : IpNetwork} {seed : List IpAddr} {ip : IpAddr}
    (hmem : ip ∈ seed) (hin : cidr.contains ip = true) :
    (Sys.seeded cidr seed).holds ip = true := by
  have hkeep : ∀ (seed : List IpAddr) (a : IpAllocator), a.holds ip = true →
      (seed.foldl (fun a ip => (a.markAllocated ip).1) a).holds ip = true := by
    intro seed
    induction seed with
    | nil =>
        intro a ha
        exact ha
    | cons ip' seed ih =>
        intro a ha
        exact ih _ ((a.markAllocated_spec ip').2.2 ip ha)
  have hfold : ∀ (seed : List IpAddr) (a : IpAllocator), ip ∈ seed → a.network = cidr →
      (seed.foldl (fun a ip => (a.markAllocated ip).1) a).holds ip = true := by
    intro seed
    induction seed with
    | nil =>
        intro a hmem
        cases hmem
    | cons ip' seed ih =>
        intro a hmem hnetwork
        obtain ⟨hsame, hmark, _⟩ := a.markAllocated_spec ip'
        rcases List.mem_cons.mp hmem with rfl | hmem
        · exact hkeep seed _ (hmark (hnetwork ▸ hin))
        · exact ih _ hmem (hsame.trans hnetwork)
  exact hfold seed _ hmem (IpAllocator.network_new cidr)

/-- Seeding an allocator from the stored devices of its server. -/
theorem Addressed.seed {s : Sys} (h : Addressed s) (hflight : s.inFlight = [])
    {server : Server} (hserver : server ∈ s.db.servers) :
    Addressed (s.setAllocator server.id
      (Sys.seeded server.cidr (Db.Devices.allocatedIpsForServer server.id s.db))) := by
  refine h.setAllocator ⟨server, hserver, rfl, (seeded_network _ _).symm⟩ ?_ ?_ h.flight_nodup
  · intro d hd hlive hid
    obtain ⟨v, hv, hvid, hin⟩ := h.inNetwork d hd hlive
    have hsame : v = server :=
      row_unique s.db.valid.servers_id hv hserver (hvid.trans hid)
    refine seeded_holds ?_ (hsame ▸ hin)
    unfold Db.Devices.allocatedIpsForServer
    refine List.mem_map.mpr ⟨d, List.mem_filter.mpr ⟨hd, ?_⟩, rfl⟩
    simpa [hid, Device.live] using hlive
  · rw [hflight]
    intro x hx
    cases hx

/-- A stopped process has no addresses to keep. -/
theorem addressed_stopped {db : Db} {interface : Interface} {up : Bool} (h : InNetwork db) :
    Addressed ⟨db, fun _ => none, interface, up, []⟩ where
  sound := by
    intro d _ _ a ha
    cases ha
  inNetwork := h
  network := by
    intro v a ha
    cases ha
  flight_held := by
    intro x hx
    cases hx
  flight_vacant := by
    intro x hx
    cases hx
  flight_nodup := List.nodup_nil

/-- The state of a start: nothing is in flight. -/
def Starting (t : Sys × List Bool) : Prop := Addressed t.1 ∧ t.1.inFlight = []

theorem starting_harmless (c : ApiCmd) (t : Sys × List Bool) (hc : Harmless c)
    (h : Starting t) : Starting (Program.faulty ApiCmd.sem c t).1 := by
  obtain ⟨haddressed, hflight, _⟩ := h.1.harmless hc (t.2.headD true)
  exact ⟨haddressed, hflight.trans h.2⟩

section Issues

variable {P : ApiCmd → Prop} {α β : Type}

theorem issues_call {c : ApiCmd} (h : P c) : Issues P (call c) := Attempt.issues_lift h

theorem issues_sql {q : DbCall} (h : P (.sql q)) : Issues P (sql q) := Attempt.issues_lift h

theorem issues_okOr (o : Option α) (e : ApiError) : Issues P (okOr o e) := by
  cases o with
  | none =>
      exact Attempt.issues_throw e
  | some a =>
      exact Attempt.issues_pure a

theorem issues_failIf (c : Bool) (e : ApiError) : Issues P (failIf c e) := by
  cases c with
  | false =>
      exact Attempt.issues_pure ()
  | true =>
      exact Attempt.issues_throw e

theorem issues_releaseAddress {releaser : Releaser} {serverId : Uuid} {ip : IpAddr}
    (hget : P (.getAllocator serverId)) (hrelease : P (.release releaser serverId ip)) :
    Issues P (releaseAddress releaser serverId ip) := by
  refine Attempt.issues_bind (issues_call hget) ?_
  intro found
  cases found with
  | false =>
      exact Attempt.issues_pure ()
  | true =>
      exact issues_call hrelease

end Issues

section Parts

open Attempt (issues_bind issues_pure issues_lift)


theorem installAdmin_issues (cfg : Config) : Issues StartCall (installAdmin cfg) := by
  refine issues_bind (issues_failIf _ _) fun _ => ?_
  refine issues_bind (issues_sql trivial) fun existing => ?_
  cases existing with
  | none =>
      exact issues_bind (issues_sql trivial) fun _ => issues_pure ()
  | some user =>
      exact issues_bind (issues_sql trivial) fun _ => issues_pure ()

theorem ensureAdmin_issues (cfg : Config) : Issues StartCall (ensureAdmin cfg) := by
  refine issues_bind (issues_sql trivial) fun admins => ?_
  split
  · exact installAdmin_issues cfg
  · exact issues_pure ()

theorem ensureDefaultServer_issues (cfg : Config) :
    Issues StartCall (ensureDefaultServer cfg) := by
  refine issues_bind (issues_sql trivial) fun state => ?_
  cases state with
  | none =>
      exact issues_bind (issues_lift trivial) fun _ =>
        issues_bind (issues_sql trivial) fun _ => issues_pure ()
  | some server =>
      dsimp only
      split
      · exact issues_bind (issues_okOr _ _) fun _ => issues_pure ()
      · split
        · exact issues_bind (issues_lift trivial) fun _ =>
            issues_bind (issues_sql trivial) fun _ => issues_pure ()
        · exact issues_bind (issues_lift trivial) fun _ =>
            issues_bind (issues_sql trivial) fun _ => issues_pure ()

theorem ensureWgInterfaceUp_issues : Issues StartCall ensureWgInterfaceUp := by
  refine issues_bind (issues_call trivial) fun up => ?_
  split
  · exact issues_pure ()
  · exact issues_bind (issues_call trivial) fun _ => issues_pure ()

theorem addPeers_issues (rows : List (String × IpAddr × Int)) :
    Issues StartCall (addPeers rows) := by
  induction rows with
  | nil =>
      exact issues_pure ()
  | cons row rows ih =>
      obtain ⟨publicKey, allocatedIp, keepalive⟩ := row
      exact issues_bind (issues_call trivial) fun _ => ih

theorem reconcilePeers_issues : Issues StartCall reconcilePeers := by
  refine issues_bind (issues_call trivial) fun rows => ?_
  split
  · exact addPeers_issues _
  · exact issues_pure ()

end Parts

/-- A part of the start that seeds no allocator. -/
theorem starting_wp {α : Type} {p : Handler α} (hp : Issues StartCall p)
    {t : Sys × List Bool} (h : Starting t) :
    wp (Program.faulty ApiCmd.sem) p (fun t' _ => Starting t') t :=
  Program.Calls.run_keeps (fun c t hc => starting_harmless c t (harmless_of_startCall hc)) hp h

/-- The loop of `build_ip_allocators` seeds one allocator after the other. -/
theorem buildAllocators_starting (servers : List Server) {t : Sys × List Bool}
    (hservers : ∀ v ∈ servers, v ∈ t.1.db.servers) (h : Starting t) :
    wp (Program.faulty ApiCmd.sem) (buildAllocators servers) (fun t' _ => Starting t') t := by
  induction servers generalizing t with
  | nil =>
      exact h
  | cons server servers ih =>
      unfold buildAllocators
      refine Attempt.wp_bind (Attempt.wp_lift ?_)
      obtain ⟨s, flags⟩ := t
      cases hflag : flags.headD true with
      | false =>
          simp only [Program.faulty, hflag, ApiCmd.sem]
          exact h
      | true =>
          simp only [Program.faulty, hflag, ApiCmd.sem, DbCall.run, DbCall.read]
          refine Attempt.wp_bind (Attempt.wp_lift ?_)
          refine ih ?_ ⟨h.1.seed h.2 (hservers server (by simp)), h.2⟩
          intro v hv
          exact hservers v (List.mem_cons_of_mem _ hv)

theorem buildIpAllocators_starting {t : Sys × List Bool} (h : Starting t) :
    wp (Program.faulty ApiCmd.sem) buildIpAllocators (fun t' _ => Starting t') t := by
  unfold buildIpAllocators
  refine Attempt.wp_bind (Attempt.wp_lift ?_)
  obtain ⟨s, flags⟩ := t
  cases hflag : flags.headD true with
  | false =>
      simp only [Program.faulty, hflag, ApiCmd.sem]
      exact h
  | true =>
      simp only [Program.faulty, hflag, ApiCmd.sem, DbCall.run, DbCall.read]
      refine buildAllocators_starting _ ?_ h
      intro v hv
      exact (List.mem_filter.mp ((List.mem_insertionSort _).mp hv)).1

/-- Whatever fails during a start, it leaves the allocators in line with the
stored devices. -/
theorem boot_starting (cfg : Config) {t : Sys × List Bool} (h : Starting t) :
    wp (Program.faulty ApiCmd.sem) (boot cfg) (fun t' _ => Starting t') t := by
  unfold boot
  refine Attempt.wp_bind_of (starting_wp (ensureAdmin_issues cfg) h) ?_ fun _ _ h => h
  intro t₁ _ h₁
  refine Attempt.wp_bind_of (starting_wp (ensureDefaultServer_issues cfg) h₁) ?_ fun _ _ h => h
  intro t₂ _ h₂
  refine Attempt.wp_bind_of (starting_wp ensureWgInterfaceUp_issues h₂) ?_ fun _ _ h => h
  intro t₃ _ h₃
  refine Attempt.wp_bind_of (buildIpAllocators_starting h₃) ?_ fun _ _ h => h
  intro t₄ _ h₄
  exact starting_wp reconcilePeers_issues h₄

end Start

end Api
end ZeroVpn
