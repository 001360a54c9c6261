import ZeroVpn.Api.Addresses
import ZeroVpn.Api.Statements
import ZeroVpn.Api.TunnelAccess
import ZeroVpn.Library.Notes

/-!
# Key rotation

A rotation writes the new public key and the new private key of a device in two
statements, and then takes the key that it read at its start off the interface.
Nothing holds the two statements together, and nothing keeps the row still
while a request works with the key that it has read.

`KeyOp` lists the requests on one device and `KeyInv` relates the row and the
interface to what the requests still have to do.  `rotation_consistent` is about
runs in which the two statements of a rotation are not torn apart and, for the
interface, no rotation changes the key while another request works with it.
-/

namespace ZeroVpn

open Library
open Library.Attempt (Issues issues_bind issues_pure issues_lift issues_throw)

namespace Api

open Db (Uuid Device User DbError Ciphertext DeviceStatus)
open Wg (IpAddr)

/-- A device, its owner and `keys::derive_public_key`. -/
structure KeySetting where
  derive : String → String
  userId : Uuid
  deviceId : Uuid

/-- The requests of the owner on the device. -/
inductive KeyOp where
  /-- With the private key that the request draws. -/
  | rotateKeys (privateKey : String)
  | connect (body : Devices.ConnectBody) (wasOffline : Bool) (draw : Devices.Draw)
  | pause
  | unpause

def KeyOp.isRotation : KeyOp → Bool
  | rotateKeys _ => true
  | _ => false

namespace KeySetting

variable (k : KeySetting)

def handler : KeyOp → Handler Unit
  | .rotateKeys privateKey =>
      Devices.rotateKeys k.userId k.deviceId ⟨k.deviceId, privateKey, k.derive privateKey⟩
  | .connect body wasOffline draw =>
      Devices.connect k.userId { body with deviceId := some k.deviceId } wasOffline draw
  | .pause => Devices.pause k.userId k.deviceId
  | .unpause => Devices.unpause k.userId k.deviceId

/-- The requests on the device over the shared state. -/
abbrev system : System Sys KeyOp Unit ApiCmd ApiCmd.Reply (Except ApiError Unit) :=
  requestSystem k.handler

/-- The stored private key decrypts and derives to the public key. -/
def pairMatches (d : Device) : Bool :=
  match d.privateKeyEncrypted.bind Ciphertext.decrypt with
  | some privateKey => k.derive privateKey == d.publicKey
  | none => false

/-- The key pair of the device. -/
def PairMatches (s : Sys) : Prop :=
  ∀ d ∈ s.db.devices, d.id = k.deviceId → k.pairMatches d = true

instance (s : Sys) : Decidable (k.PairMatches s) :=
  inferInstanceAs (Decidable (∀ d ∈ s.db.devices, _))

/-- The only key of the device on the interface is its `public_key`; a key belongs
to the device whose address it was configured with. -/
def OnlyKey (s : Sys) : Prop :=
  ∀ d ∈ s.db.devices, d.id = k.deviceId →
    ∀ key peer, s.interface key = some peer → peer.allowedIp = d.allocatedIp →
      key = d.publicKey

/-- The device is stored for its owner, is not revoked and has its key pair. -/
def Stored (s : Sys) : Prop :=
  ∃ d ∈ s.db.devices, d.id = k.deviceId ∧ d.userId = k.userId ∧ d.status ≠ .revoked ∧
    k.pairMatches d = true

instance (s : Sys) : Decidable (k.Stored s) :=
  inferInstanceAs (Decidable (∃ d ∈ s.db.devices, _))

end KeySetting

section Conditions

/-- A rotation has written the public key and not yet the private key. -/
def pairing : KeyOp → ApiCmd → Bool
  | .rotateKeys _, .encrypt _ => true
  | .rotateKeys _, .sql (.setPrivateKeyEncrypted ..) => true
  | _, _ => false

/-- A rotation has written the public key and not yet removed the old peer. -/
def swapping : KeyOp → ApiCmd → Bool
  | .rotateKeys _, .removePeer _ => true
  | op, c => pairing op c

/-- A request has read the row and not yet issued its last command with a key
of it. -/
def working : KeyOp → ApiCmd → Bool
  | .rotateKeys _, .sql (.findServer _) => true
  | .rotateKeys _, .sql (.updatePublicKey ..) => true
  | .rotateKeys _, .addPeer .. => true
  | .connect .., .sql (.findServer _) => true
  | .connect .., .render => true
  | .connect .., .addPeer .. => true
  | .unpause, .sql (.setStatus ..) => true
  | .unpause, .sql (.findServer _) => true
  | .unpause, .addPeer .. => true
  | op, c => swapping op c

/-- A rotation is about to write the public key. -/
def rotating : KeyOp → ApiCmd → Bool
  | .rotateKeys _, .sql (.updatePublicKey ..) => true
  | _, _ => false

/-- Some request is about to make a call of the class. -/
def someThread (p : RequestPool KeyOp) (P : Nat → KeyOp → ApiCmd → Bool) : Bool :=
  (List.range p.threads.length).any fun j => (nextCall p j).any fun tc => P j tc.1 tc.2

/-- A rotation writes the public key while no other request is inside `window`, and
no rotation is killed inside `mid`. -/
def undisturbed (window mid : KeyOp → ApiCmd → Bool) (p : RequestPool KeyOp) :
    PoolEvent KeyOp Unit → Bool
  | .spawn _ => true
  | .step i _ =>
      !(nextCall p i).any (fun tc => rotating tc.1 tc.2) ||
        !someThread p fun j op c => j != i && window op c
  | .crash i => !(nextCall p i).any fun tc => mid tc.1 tc.2
  | .restart _ => !someThread p fun _ op c => mid op c

/-- A call of the class succeeds. -/
def succeeds (P : KeyOp → ApiCmd → Bool) (p : RequestPool KeyOp) : PoolEvent KeyOp Unit → Bool
  | .step i ok => ok || !(nextCall p i).any fun tc => P tc.1 tc.2
  | _ => true

/-- Every rotation that has written its public key also writes its private key,
before another rotation writes. -/
def pairsTogether (p : RequestPool KeyOp) (e : PoolEvent KeyOp Unit) : Bool :=
  undisturbed pairing pairing p e && succeeds pairing p e

/-- No rotation writes its public key while another request works with the row,
and every rotation that has written it goes on to remove the old peer. -/
def swapsAlone (p : RequestPool KeyOp) (e : PoolEvent KeyOp Unit) : Bool :=
  undisturbed working swapping p e

/-- The commands for the interface. -/
def isCommand : ApiCmd → Bool
  | .addPeer .. => true
  | .removePeer _ => true
  | _ => false

/-- The commands for the interface succeed. -/
def commandsSucceed : RequestPool KeyOp → PoolEvent KeyOp Unit → Bool :=
  succeeds fun _ c => isCommand c

/-- No rotation is in flight. -/
def noRotation (p : RequestPool KeyOp) : Bool := !someThread p fun _ op _ => op.isRotation

variable {p : RequestPool KeyOp}

theorem not_of_someThread {P : Nat → KeyOp → ApiCmd → Bool} (h : someThread p P = false)
    {j : Nat} {op : KeyOp} {c : ApiCmd} (hj : nextCall p j = some (op, c)) : P j op c = false := by
  have hnone := List.any_eq_false.mp h j (List.mem_range.mpr (lt_of_nextCall hj))
  simpa [hj] using hnone

theorem swapping_of_pairing {op : KeyOp} {c : ApiCmd} (h : pairing op c = true) :
    swapping op c = true := by
  unfold swapping
  split
  · rfl
  · exact h

theorem working_of_swapping {op : KeyOp} {c : ApiCmd} (h : swapping op c = true) :
    working op c = true := by
  unfold working
  split
  all_goals first
    | rfl
    | exact h

theorem isRotation_of_swapping {op : KeyOp} {c : ApiCmd} (h : swapping op c = true) :
    op.isRotation = true := by
  cases op with
  | rotateKeys privateKey =>
      rfl
  | connect body wasOffline draw | pause | unpause =>
      simp [swapping, pairing] at h

end Conditions

section Invariant

/-- What a request still has to do with the keys of the device. -/
structure KeyNote where
  /-- The key it has read, or has written after reading. -/
  held : Option String
  /-- The key it has replaced and not yet removed. -/
  old : Option String
  /-- The private key it has to store. -/
  owed : Option String

namespace KeyNote

def idle : KeyNote := ⟨none, none, none⟩

def reading (key : String) : KeyNote := ⟨some key, none, none⟩

def swapped (old new privateKey : String) : KeyNote := ⟨some new, some old, some privateKey⟩

def stored (old new : String) : KeyNote := ⟨some new, some old, none⟩

/-- Nothing is left half done. -/
def Clean (m : KeyNote) : Prop := m.old = none ∧ m.owed = none

theorem clean_idle : idle.Clean := ⟨rfl, rfl⟩

theorem clean_reading (key : String) : (reading key).Clean := ⟨rfl, rfl⟩

end KeyNote

variable (k : KeySetting)

/-- The row of the device. -/
structure KeyRow (db : Db) (d : Device) : Prop where
  mem : d ∈ db.devices
  id : d.id = k.deviceId
  owner : d.userId = k.userId
  live : d.status ≠ .revoked
  key : d.privateKeyEncrypted.bind Ciphertext.decrypt ≠ none

/-- The interface, as far as the address of the device goes. -/
structure InterfaceInv (interface : Interface) (d : Device) (μ : Nat → KeyNote) : Prop where
  held : ∀ i key, (μ i).held = some key → key = d.publicKey
  keys : ∀ key peer, interface key = some peer → peer.allowedIp = d.allocatedIp →
    key = d.publicKey ∨ ∃ i, (μ i).old = some key

/-- The private key that a rotation has to store belongs to the public key of the
row, and it is the only one. -/
def Owes (d : Device) (μ : Nat → KeyNote) : Prop :=
  ∀ i privateKey, (μ i).owed = some privateKey →
    d.publicKey = k.derive privateKey ∧ ∀ j, j ≠ i → (μ j).owed = none

/-- The row and, if the run is `strict`, the interface. -/
structure KeyInvAt (strict : Prop) (s : Sys) (μ : Nat → KeyNote) (d : Device) : Prop where
  row : KeyRow k s.db d
  owes : Owes k d μ
  pair : (∀ i, (μ i).owed = none) → k.pairMatches d = true
  interface : strict → InterfaceInv s.interface d μ

def KeyInv (strict : Prop) (s : Sys) (μ : Nat → KeyNote) : Prop :=
  ∃ d, KeyInvAt k strict s μ d

variable {k} {strict : Prop} {s s' : Sys} {μ : Nat → KeyNote} {d d' : Device} {i : Nat}

theorem keyRow_unique (h : KeyRow k s.db d) (hd' : d' ∈ s.db.devices) (hid : d'.id = k.deviceId) :
    d' = d :=
  row_unique s.db.valid.devices_id hd' h.mem (hid.trans h.id.symm)

theorem KeyRow.owned (h : KeyRow k s.db d) : Db.Devices.owned k.userId k.deviceId d = true := by
  simp [Db.Devices.owned, h.id, h.owner]

theorem pairMatches_iff {privateKey : String}
    (h : d.privateKeyEncrypted = some (.encrypted privateKey)) :
    k.pairMatches d = true ↔ k.derive privateKey = d.publicKey := by
  simp [KeySetting.pairMatches, h, Ciphertext.decrypt]

/-- One request rewrites its note. -/
theorem InterfaceInv.note {interface : Interface} (h : InterfaceInv interface d μ) {m : KeyNote}
    (hheld : ∀ key, m.held = some key → key = d.publicKey)
    (hold : ∀ key, (μ i).old = some key → m.old = some key ∨ interface key = none) :
    InterfaceInv interface d (Function.update μ i m) where
  held := by
    intro j key hj
    rcases eq_or_ne j i with rfl | hji
    · rw [Function.update_self] at hj
      exact hheld key hj
    · rw [Function.update_of_ne hji] at hj
      exact h.held j key hj
  keys := by
    intro key peer hkey hip
    refine (h.keys key peer hkey hip).imp_right ?_
    rintro ⟨j, hj⟩
    refine ⟨j, ?_⟩
    rcases eq_or_ne j i with rfl | hji
    · rw [Function.update_self]
      refine (hold key hj).resolve_right ?_
      rw [hkey]
      exact Option.some_ne_none peer
    · rwa [Function.update_of_ne hji]

theorem InterfaceInv.removePeer {interface : Interface} (h : InterfaceInv interface d μ)
    (key : String) : InterfaceInv (interface.removePeer key) d μ where
  held := h.held
  keys := by
    intro key' peer hkey' hip
    rcases eq_or_ne key' key with rfl | hne
    · rw [Interface.removePeer_self] at hkey'
      cases hkey'
    · rw [Interface.removePeer_of_ne hne] at hkey'
      exact h.keys key' peer hkey' hip

theorem InterfaceInv.addPeer {interface : Interface} (h : InterfaceInv interface d μ)
    {key : String} (hkey : key = d.publicKey) (peer : Peer) :
    InterfaceInv (interface.addPeer key peer) d μ where
  held := h.held
  keys := by
    intro key' peer' hkey' hip
    rcases eq_or_ne key' key with rfl | hne
    · exact Or.inl hkey
    · rw [Interface.addPeer_of_ne hne] at hkey'
      exact h.keys key' peer' hkey' hip

theorem Owes.note (h : Owes k d μ) {m : KeyNote} (hm : m.owed = none) :
    Owes k d (Function.update μ i m) := by
  intro j privateKey hj
  rcases eq_or_ne j i with rfl | hji
  · rw [Function.update_self, hm] at hj
    cases hj
  · rw [Function.update_of_ne hji] at hj
    refine ⟨(h j privateKey hj).1, ?_⟩
    intro l hl
    rcases eq_or_ne l i with rfl | hli
    · rw [Function.update_self]
      exact hm
    · rw [Function.update_of_ne hli]
      exact (h j privateKey hj).2 l hl

/-- Nothing was owed before a note that owed nothing was rewritten. -/
theorem owed_of_note {m : KeyNote} (hi : (μ i).owed = none)
    (hnone : ∀ j, (Function.update μ i m j).owed = none) (j : Nat) : (μ j).owed = none := by
  rcases eq_or_ne j i with rfl | hji
  · exact hi
  · have hj := hnone j
    rwa [Function.update_of_ne hji] at hj

/-- The invariant only looks at the devices and at the interface. -/
theorem keyInvAt_congr (h : KeyInvAt k strict s μ d) (hdb : s'.db.devices = s.db.devices)
    (hif : strict → InterfaceInv s'.interface d μ) :
    KeyInvAt k strict s' μ d where
  row := ⟨hdb ▸ h.row.mem, h.row.id, h.row.owner, h.row.live, h.row.key⟩
  owes := h.owes
  pair := h.pair
  interface := hif

/-- A request that has nothing half done takes or drops a key. -/
theorem keyInvAt_note (h : KeyInvAt k strict s μ d) (howed : (μ i).owed = none)
    (hold : strict → (μ i).old = none) {m : KeyNote} (hm : m.owed = none)
    (hheld : ∀ key, m.held = some key → key = d.publicKey) :
    KeyInvAt k strict s (Function.update μ i m) d where
  row := h.row
  owes := h.owes.note hm
  pair hnone := h.pair (owed_of_note howed hnone)
  interface := by
    intro hs
    refine (h.interface hs).note hheld ?_
    intro key hkey
    rw [hold hs] at hkey
    cases hkey

theorem keyInv_idle (h : KeyInv k strict s μ) (howed : (μ i).owed = none)
    (hold : strict → (μ i).old = none) : KeyInv k strict s (Function.update μ i .idle) := by
  obtain ⟨d, hd⟩ := h
  exact ⟨d, keyInvAt_note hd howed hold rfl fun _ hkey => by cases hkey⟩

theorem keyInv_drop (h : KeyInv k strict s μ) (hm : (μ i).Clean) :
    KeyInv k strict s (Function.update μ i .idle) := keyInv_idle h hm.2 fun _ => hm.1

/-- All requests are gone. -/
theorem keyInv_restart (h : KeyInv k strict s μ) (howed : ∀ i, (μ i).owed = none)
    (hold : strict → ∀ i, (μ i).old = none) : KeyInv k strict s fun _ => .idle := by
  obtain ⟨d, hd⟩ := h
  refine ⟨d, hd.row, ?_, fun _ => hd.pair howed, ?_⟩
  · intro i privateKey hi
    cases hi
  · intro hs
    refine ⟨?_, ?_⟩
    · intro i key hi
      cases hi
    intro key peer hkey hip
    refine Or.inl (((hd.interface hs).keys key peer hkey hip).resolve_right ?_)
    rintro ⟨j, hj⟩
    rw [hold hs j] at hj
    cases hj

/-- A peer leaves the interface. -/
theorem keyInv_remove (h : KeyInv k strict s μ) (key : String) :
    KeyInv k strict { s with interface := s.interface.removePeer key } μ := by
  obtain ⟨d, hd⟩ := h
  exact ⟨d, keyInvAt_congr hd rfl fun hs => (hd.interface hs).removePeer key⟩

/-- A request adds the key that it holds and lets it go. -/
theorem keyInv_add (h : KeyInv k strict s μ) {key : String} (hm : μ i = .reading key)
    (peer : Peer) :
    KeyInv k strict { s with interface := s.interface.addPeer key peer }
      (Function.update μ i .idle) := by
  obtain ⟨d, hd⟩ := h
  have hclean : (μ i).Clean := hm ▸ KeyNote.clean_reading key
  refine keyInv_drop ⟨d, keyInvAt_congr hd rfl fun hs => ?_⟩ hclean
  have hkey : key = d.publicKey := (hd.interface hs).held i key (by rw [hm]; rfl)
  exact (hd.interface hs).addPeer hkey peer

/-- A rotation takes the key that it replaced off the interface. -/
theorem keyInv_swapPeer (h : KeyInv k strict s μ) {old new : String}
    (hm : μ i = .stored old new) (hif : strict → s'.interface = s.interface.removePeer old)
    (hdb : s'.db.devices = s.db.devices) :
    KeyInv k strict s' (Function.update μ i (.reading new)) := by
  obtain ⟨d, hd⟩ := h
  have hat : KeyInvAt k strict s' μ d := by
    refine keyInvAt_congr hd hdb fun hs => ?_
    rw [hif hs]
    exact (hd.interface hs).removePeer old
  refine ⟨d, hat.row, hat.owes.note rfl, ?_, ?_⟩
  · intro hnone
    exact hat.pair (owed_of_note (by rw [hm]; rfl) hnone)
  · intro hs
    refine (hat.interface hs).note ?_ ?_
    · intro key hkey
      refine (hd.interface hs).held i key ?_
      rw [hm]
      exact hkey
    · intro key hkey
      rw [hm] at hkey
      cases hkey
      rw [hif hs]
      exact Or.inr (Interface.removePeer_self _ _)

section Writes

/-- The row after a write of the owner. -/
theorem keyRow_write (h : KeyRow k s.db d) {f : Device → Device}
    (hdevices : s'.db.devices = updateWhere (Db.Devices.owned k.userId k.deviceId) f s.db.devices)
    (hid : (f d).id = d.id) (howner : (f d).userId = d.userId) (hlive : (f d).status ≠ .revoked)
    (hkey : (f d).privateKeyEncrypted.bind Ciphertext.decrypt ≠ none) :
    KeyRow k s'.db (f d) where
  mem := by
    rw [hdevices]
    exact mem_updateWhere_of_pos h.mem h.owned
  id := hid.trans h.id
  owner := howner.trans h.owner
  live := hlive
  key := hkey

/-- `set_status` of a pause or an unpause. -/
theorem keyInv_setStatus {status : DeviceStatus} (hstatus : status ≠ .revoked)
    (h : KeyInv k strict s μ) (hinterface : s'.interface = s.interface)
    (hdevices : s'.db.devices = updateWhere (Db.Devices.owned k.userId k.deviceId)
      (fun d => { d with status := status }) s.db.devices) :
    KeyInv k strict s' μ := by
  obtain ⟨d, hd⟩ := h
  refine ⟨{ d with status := status },
    keyRow_write hd.row hdevices rfl rfl hstatus hd.row.key, hd.owes, hd.pair, ?_⟩
  intro hs
  rw [hinterface]
  exact ⟨(hd.interface hs).held, (hd.interface hs).keys⟩

/-- A rotation writes the public key. -/
theorem keyInv_updatePublicKey {key privateKey : String} (h : KeyInv k strict s μ)
    (hinterface : s'.interface = s.interface) (hm : μ i = .reading key)
    (howed : ∀ j, j ≠ i → (μ j).owed = none)
    (hothers : strict → ∀ j, j ≠ i → (μ j).held = none ∧ (μ j).old = none)
    (hdevices : s'.db.devices = updateWhere (Db.Devices.owned k.userId k.deviceId)
      (fun d => { d with publicKey := k.derive privateKey }) s.db.devices) :
    KeyInv k strict s'
      (Function.update μ i (.swapped key (k.derive privateKey) privateKey)) := by
  obtain ⟨d, hd⟩ := h
  refine ⟨{ d with publicKey := k.derive privateKey },
    keyRow_write hd.row hdevices rfl rfl hd.row.live hd.row.key, ?_, ?_, ?_⟩
  · intro j privateKey' hj
    rcases eq_or_ne j i with rfl | hji
    · rw [Function.update_self] at hj
      cases hj
      refine ⟨rfl, fun l hl => ?_⟩
      rw [Function.update_of_ne hl]
      exact howed l hl
    · rw [Function.update_of_ne hji, howed j hji] at hj
      cases hj
  · intro hnone
    have hi := hnone i
    rw [Function.update_self] at hi
    cases hi
  · intro hs
    rw [hinterface]
    have hkey : key = d.publicKey := (hd.interface hs).held i key (by rw [hm]; rfl)
    refine ⟨?_, ?_⟩
    · intro j key' hj
      rcases eq_or_ne j i with rfl | hji
      · rw [Function.update_self] at hj
        cases hj
        rfl
      · rw [Function.update_of_ne hji, (hothers hs j hji).1] at hj
        cases hj
    · intro key' peer hkey' hip
      -- before the write the interface has the old key only, and that is owed
      refine Or.inr ⟨i, ?_⟩
      rw [Function.update_self]
      rcases (hd.interface hs).keys key' peer hkey' hip with heq | ⟨j, hj⟩
      · rw [heq, ← hkey]
        rfl
      · rcases eq_or_ne j i with rfl | hji
        · rw [hm] at hj
          cases hj
        · rw [(hothers hs j hji).2] at hj
          cases hj

/-- A rotation writes the private key. -/
theorem keyInv_setPrivateKey {old new privateKey : String} (h : KeyInv k strict s μ)
    (hinterface : s'.interface = s.interface) (hm : μ i = .swapped old new privateKey)
    (hdevices : s'.db.devices = updateWhere (Db.Devices.owned k.userId k.deviceId)
      (fun d => { d with privateKeyEncrypted := some (.encrypted privateKey) }) s.db.devices) :
    KeyInv k strict s' (Function.update μ i (.stored old new)) := by
  obtain ⟨d, hd⟩ := h
  have howes := hd.owes i privateKey (by rw [hm]; rfl)
  refine ⟨{ d with privateKeyEncrypted := some (.encrypted privateKey) },
    keyRow_write hd.row hdevices rfl rfl hd.row.live (fun hnone => by cases hnone), ?_, ?_, ?_⟩
  · exact hd.owes.note rfl
  · intro _
    exact (pairMatches_iff rfl).mpr howes.1.symm
  · intro hs
    rw [hinterface]
    have hnote : InterfaceInv s.interface d (Function.update μ i (.stored old new)) := by
      refine (hd.interface hs).note ?_ ?_
      · intro key hkey
        refine (hd.interface hs).held i key ?_
        rw [hm]
        exact hkey
      · intro key hkey
        rw [hm] at hkey
        exact Or.inl hkey
    exact ⟨hnote.held, hnote.keys⟩

end Writes

section Steps

/-- A call belongs to the time for which the note stands. -/
structure KeyObl (op : KeyOp) (c : ApiCmd) (m : KeyNote) : Prop where
  held : m.held ≠ none → working op c = true
  old : m.old ≠ none → swapping op c = true
  owed : m.owed ≠ none → pairing op c = true

/-- What a run grants a call of thread `i`. -/
structure KeyCond (strict : Prop) (i : Nat) (op : KeyOp) (c : ApiCmd) (ok : Bool) (_ : Sys)
    (μ : Nat → KeyNote) : Prop where
  pairs : rotating op c = true → ∀ j, j ≠ i → (μ j).owed = none
  succeeds : pairing op c = true → ok = true
  alone : strict → rotating op c = true → ∀ j, j ≠ i → (μ j).held = none ∧ (μ j).old = none
  command : strict → isCommand c = true → ok = true

theorem keyObl_idle (op : KeyOp) (c : ApiCmd) : KeyObl op c .idle :=
  ⟨fun h => absurd rfl h, fun h => absurd rfl h, fun h => absurd rfl h⟩

theorem keyObl_reading {op : KeyOp} {c : ApiCmd} {key : String} (h : working op c = true) :
    KeyObl op c (.reading key) :=
  ⟨fun _ => h, fun h => absurd rfl h, fun h => absurd rfl h⟩

theorem keyObl_swapped {op : KeyOp} {c : ApiCmd} {old new privateKey : String}
    (h : pairing op c = true) : KeyObl op c (.swapped old new privateKey) :=
  ⟨fun _ => working_of_swapping (swapping_of_pairing h), fun _ => swapping_of_pairing h, fun _ => h⟩

theorem keyObl_stored {op : KeyOp} {c : ApiCmd} {old new : String} (h : swapping op c = true) :
    KeyObl op c (.stored old new) :=
  ⟨fun _ => working_of_swapping h, fun _ => h, fun h => absurd rfl h⟩

/-- A statement is rejected, or the database accepts it. -/
theorem sem_sql_cases (q : DbCall) (ok : Bool) (s : Sys) :
    (∃ e, ApiCmd.sem (.sql q) ok s = (s, (.error e : Except DbError q.Reply))) ∨
      ∃ r db', ok = true ∧ q.run s.db = .ok (r, db') ∧
        ApiCmd.sem (.sql q) ok s =
          ({ s with db := db', inFlight := s.inFlightAfter q },
            (.ok r : Except DbError q.Reply)) := by
  cases ok with
  | false =>
      exact Or.inl ⟨.unavailable, rfl⟩
  | true =>
      cases hrun : q.run s.db with
      | error e =>
          refine Or.inl ⟨e, ?_⟩
          simp only [ApiCmd.sem, hrun]
          rfl
      | ok rdb =>
          refine Or.inr ⟨rdb.1, rdb.2, rfl, rfl, ?_⟩
          simp only [ApiCmd.sem, hrun]
          rfl

/-- The calls that write no device and touch no peer. -/
def Quiet : ApiCmd → Prop
  | .sql (.findUser _) => True
  | .sql (.findForUser ..) => True
  | .sql (.findServer _) => True
  | .encrypt _ => True
  | .render => True
  | .audit .. => True
  | _ => False

theorem quiet_sem {c : ApiCmd} (hc : Quiet c) (ok : Bool) (s : Sys) :
    (c.sem ok s).1.db = s.db ∧ (c.sem ok s).1.interface = s.interface := by
  cases c with
  | sql q =>
      cases q with
      | findUser _ | findForUser _ _ | findServer _ =>
          cases ok with
          | false =>
              exact ⟨rfl, rfl⟩
          | true =>
              exact ⟨rfl, rfl⟩
      | _ =>
          cases hc
  | encrypt _ | render | audit _ _ =>
      cases ok with
      | false =>
          exact ⟨rfl, rfl⟩
      | true =>
          exact ⟨rfl, rfl⟩
  | _ =>
      cases hc

theorem keyInv_quiet {c : ApiCmd} (hc : Quiet c) (ok : Bool) (h : KeyInv k strict s μ) :
    KeyInv k strict (c.sem ok s).1 μ := by
  obtain ⟨d, hd⟩ := h
  obtain ⟨hdb, hif⟩ := quiet_sem hc ok s
  refine ⟨d, keyInvAt_congr hd (by rw [hdb]) fun hs => ?_⟩
  rw [hif]
  exact hd.interface hs

end Steps

section Requests

/-- A part of a request of thread `i`. -/
abbrev KeyFollows (k : KeySetting) (strict : Prop) (i : Nat) (op : KeyOp) {β : Type}
    (Q : Except ApiError β → KeyNote → Prop) (p : Handler β) (m : KeyNote) : Prop :=
  Follows k.system (KeyInv k strict) KeyObl (KeyCond strict) i op Q p.run m

variable {op : KeyOp} {β : Type}

/-- The rule for one call. -/
theorem follows_lift {c : ApiCmd} {f : c.Reply → Except ApiError β} {m : KeyNote}
    {Q : Except ApiError β → KeyNote → Prop} (hobl : KeyObl op c m)
    (hcall : ∀ s μ ok, KeyInv k strict s μ → μ i = m → KeyCond strict i op c ok s μ →
      ∃ m', KeyInv k strict (c.sem ok s).1 (Function.update μ i m') ∧
        Q (f (c.sem ok s).2) m') :
    KeyFollows k strict i op Q (Attempt.lift c f) m := ⟨hobl, hcall⟩

/-- A quiet call of a request that has nothing half done; it may let its key go. -/
theorem follows_quiet {c : ApiCmd} {f : c.Reply → Except ApiError β} {m : KeyNote}
    (hc : Quiet c) (hobl : KeyObl op c m) (hm : m.Clean) (keep : Except ApiError β → Bool) :
    KeyFollows k strict i op (fun r m' => m' = if keep r then m else .idle)
      (Attempt.lift c f) m := by
  refine follows_lift hobl ?_
  rintro s μ ok h rfl _
  refine ⟨_, ?_, rfl⟩
  have hq := keyInv_quiet hc ok h
  split
  · rw [Function.update_eq_self]
    exact hq
  · exact keyInv_drop hq hm

/-- A quiet call whose answer the request goes on with. -/
theorem follows_call {c : ApiCmd} {m : KeyNote} (hc : Quiet c) (hobl : KeyObl op c m) :
    KeyFollows k strict i op (fun r m' => (∃ a, r = .ok a) ∧ m' = m) (call c) m := by
  refine follows_lift hobl ?_
  rintro s μ ok h rfl _
  refine ⟨μ i, ?_, ⟨_, rfl⟩, rfl⟩
  rw [Function.update_eq_self]
  exact keyInv_quiet hc ok h

/-- What a request does after its last use of a key. -/
theorem follows_rest {p : Handler β} (hp : Attempt.Issues Quiet p) :
    KeyFollows k strict i op (fun _ m' => m' = .idle) p .idle :=
  follows_of_calls (fun c _ => keyObl_idle op c)
    (fun _ _ _ ok hc h _ => keyInv_quiet hc ok h) hp fun _ => rfl

section Parts

variable {γ : Type} {m : KeyNote} {Q : Except ApiError γ → KeyNote → Prop}

theorem follows_okOr {o : Option β} {e : ApiError} {f : β → Handler γ}
    (hnone : Q (.error e) m) (hsome : ∀ b, o = some b → KeyFollows k strict i op Q (f b) m) :
    KeyFollows k strict i op Q (okOr o e >>= f) m := by
  cases o with
  | none =>
      exact hnone
  | some b =>
      exact hsome b rfl

theorem follows_failIf {c : Bool} {e : ApiError} {f : Unit → Handler γ}
    (htrue : c = true → Q (.error e) m) (hfalse : c = false → KeyFollows k strict i op Q (f ()) m) :
    KeyFollows k strict i op Q (failIf c e >>= f) m := by
  cases c with
  | false =>
      exact hfalse rfl
  | true =>
      exact htrue rfl

/-- A request starts as its user. -/
theorem follows_currentUser {id : Uuid} :
    KeyFollows k strict i op (fun r m' => m' = .idle ∧ ∀ u, r = .ok u → u.id = id)
      (currentUser id) .idle := by
  have hfind : KeyFollows k strict i op
      (fun (r : Except ApiError (Option User)) m' =>
        m' = .idle ∧ ∀ u, r = .ok (some u) → u.id = id)
      (sql (.findUser id)) .idle := by
    refine follows_lift (keyObl_idle _ _) ?_
    intro s μ ok h hm _
    have hq : KeyInv k strict (ApiCmd.sem (.sql (.findUser id)) ok s).1 μ :=
      keyInv_quiet (c := .sql (.findUser id)) trivial ok h
    refine ⟨.idle, keyInv_drop hq (hm ▸ KeyNote.clean_idle), rfl, ?_⟩
    intro u hu
    cases ok with
    | false =>
        cases hu
    | true =>
        injection hu with hu
        exact user_id_of_findById hu
  refine hfind.attempt_bind ?_ ?_
  · rintro found m' ⟨rfl, hid⟩
    refine follows_okOr ⟨rfl, fun u hu => by cases hu⟩ ?_
    rintro user rfl
    refine follows_failIf (fun _ => ⟨rfl, fun u hu => by cases hu⟩) ?_
    intro _
    refine ⟨rfl, ?_⟩
    intro u hu
    cases hu
    exact hid user rfl
  · rintro e m' ⟨rfl, _⟩
    exact ⟨rfl, fun u hu => by cases hu⟩

theorem KeyRow.find (h : KeyRow k s.db d) :
    Db.Devices.findForUser k.userId k.deviceId s.db = some d := by
  cases hfind : Db.Devices.findForUser k.userId k.deviceId s.db with
  | none =>
      have hnot := List.find?_eq_none.mp hfind d h.mem
      exact absurd h.owned hnot
  | some d' =>
      obtain ⟨hmem, _, hid⟩ := findForUser_eq_some hfind
      rw [keyRow_unique h hmem hid]

/-- What a request knows about the row that it has read. -/
structure ReadRow (k : KeySetting) (d : Device) : Prop where
  id : d.id = k.deviceId
  owner : d.userId = k.userId
  live : d.status ≠ .revoked
  key : d.privateKeyEncrypted.bind Ciphertext.decrypt ≠ none

/-- A request reads the row, and keeps its key in mind if it is going to use it. -/
theorem follows_findForUser (hold : Bool) :
    KeyFollows k strict i op
      (fun (r : Except ApiError (Option Device)) m' =>
        (∃ e, r = .error e ∧ m' = .idle) ∨
          ∃ d, r = .ok (some d) ∧ ReadRow k d ∧
            m' = if hold then .reading d.publicKey else .idle)
      (sql (.findForUser k.userId k.deviceId)) .idle := by
  refine follows_lift (keyObl_idle _ _) ?_
  intro s μ ok h hm _
  have hclean : (μ i).Clean := hm ▸ KeyNote.clean_idle
  have hq : KeyInv k strict
      (ApiCmd.sem (.sql (.findForUser k.userId k.deviceId)) ok s).1 μ :=
    keyInv_quiet (c := .sql (.findForUser k.userId k.deviceId)) trivial ok h
  cases ok with
  | false =>
      exact ⟨.idle, keyInv_drop hq hclean, Or.inl ⟨_, rfl, rfl⟩⟩
  | true =>
      obtain ⟨d, hd⟩ := hq
      have hrow : KeyRow k s.db d := hd.row
      refine ⟨if hold then .reading d.publicKey else .idle,
        ⟨d, keyInvAt_note hd hclean.2 (fun _ => hclean.1) ?_ ?_⟩,
        Or.inr ⟨d, ?_, ⟨hrow.id, hrow.owner, hrow.live, hrow.key⟩, rfl⟩⟩
      · cases hold with
        | false =>
            rfl
        | true =>
            rfl
      · intro key hkey
        cases hold with
        | false =>
            cases hkey
        | true =>
            cases hkey
            rfl
      · exact congrArg Except.ok hrow.find

/-- A request adds the peer of the key that it has read. -/
theorem follows_addPeer {key : String} {ip : IpAddr} {presharedKey : Option String}
    {keepalive : Nat} (hop : working op (.addPeer key ip presharedKey keepalive) = true) :
    KeyFollows k strict i op (fun r m' => (∃ b, r = .ok b) ∧ m' = .idle)
      (call (.addPeer key ip presharedKey keepalive)) (.reading key) := by
  refine follows_lift (keyObl_reading hop) ?_
  intro s μ ok h hm _
  refine ⟨.idle, ?_, ⟨_, rfl⟩, rfl⟩
  cases ok with
  | false =>
      exact keyInv_drop h (hm ▸ KeyNote.clean_reading key)
  | true =>
      exact keyInv_add h hm _

/-- A request looks the server of the device up and lets the key go if there is none. -/
theorem follows_server {id : Uuid} {key : String} {e : ApiError} {f : Db.Server → Handler γ}
    (hop : working op (.sql (.findServer id)) = true)
    (hf : ∀ server, KeyFollows k strict i op (fun _ m' => m' = .idle) (f server) (.reading key)) :
    KeyFollows k strict i op (fun _ m' => m' = .idle)
      (sql (.findServer id) >>= fun found => okOr found e >>= f) (.reading key) := by
  have hfind : KeyFollows k strict i op
      (fun (r : Except ApiError (Option Db.Server)) m' =>
        m' = if r.toOption.join.isSome then .reading key else .idle)
      (sql (.findServer id)) (.reading key) :=
    follows_quiet (c := .sql (.findServer id)) trivial (keyObl_reading hop)
      (KeyNote.clean_reading key) fun r => r.toOption.join.isSome
  refine hfind.attempt_bind ?_ ?_
  · rintro (_ | server) m' rfl
    · rfl
    · exact hf server
  · rintro e m' rfl
    rfl

/-- A pause removes the peer of the key that it has read. -/
theorem follows_removePeer {key : String} :
    KeyFollows k strict i op (fun r m' => (∃ b, r = .ok b) ∧ m' = .idle)
      (call (.removePeer key)) .idle := by
  refine follows_lift (keyObl_idle _ _) ?_
  intro s μ ok h hm _
  have hclean : (μ i).Clean := hm ▸ KeyNote.clean_idle
  refine ⟨.idle, keyInv_drop ?_ hclean, ⟨_, rfl⟩, rfl⟩
  cases ok with
  | false =>
      exact h
  | true =>
      exact keyInv_remove h key

/-- A pause or an unpause writes the status. -/
theorem follows_setStatus {status : DeviceStatus} (hstatus : status ≠ .revoked)
    (hobl : KeyObl op (.sql (.setStatus k.userId k.deviceId status)) m) (hm : m.Clean) :
    KeyFollows k strict i op
      (fun (r : Except ApiError Nat) m' =>
        (∃ e, r = .error e ∧ m' = .idle) ∨ ∃ n, r = .ok n ∧ n ≠ 0 ∧ m' = m)
      (sql (.setStatus k.userId k.deviceId status)) m := by
  refine follows_lift hobl ?_
  rintro s μ ok h rfl _
  rcases sem_sql_cases (.setStatus k.userId k.deviceId status) ok s with
    ⟨e, hsem⟩ | ⟨n, db', _, hrun, hsem⟩
  · rw [hsem]
    exact ⟨.idle, keyInv_drop h hm, Or.inl ⟨_, rfl, rfl⟩⟩
  · rw [hsem]
    obtain ⟨htables, hn⟩ := Db.updateDevices_eq_ok hrun
    refine ⟨μ i, ?_, Or.inr ⟨n, rfl, ?_, rfl⟩⟩
    · rw [Function.update_eq_self]
      exact keyInv_setStatus hstatus h rfl (congrArg Db.Tables.devices htables)
    · obtain ⟨d, hd⟩ := h
      have hpos := rowsAffected_pos hd.row.mem hd.row.owned
      omega

end Parts

section Rotation

variable {privateKey key old new : String}

theorem follows_updatePublicKey :
    KeyFollows k strict i (.rotateKeys privateKey)
      (fun (r : Except ApiError Nat) m' =>
        (∃ e, r = .error e ∧ m' = .idle) ∨
          ∃ n, r = .ok n ∧ n ≠ 0 ∧ m' = .swapped key (k.derive privateKey) privateKey)
      (sql (.updatePublicKey k.userId k.deviceId (k.derive privateKey))) (.reading key) := by
  refine follows_lift (keyObl_reading rfl) ?_
  intro s μ ok h hm hcond
  rcases sem_sql_cases (.updatePublicKey k.userId k.deviceId (k.derive privateKey)) ok s with
    ⟨e, hsem⟩ | ⟨n, db', _, hrun, hsem⟩
  · rw [hsem]
    exact ⟨.idle, keyInv_drop h (hm ▸ KeyNote.clean_reading key), Or.inl ⟨_, rfl, rfl⟩⟩
  · rw [hsem]
    obtain ⟨htables, hn⟩ := Db.updateDevices_eq_ok hrun
    refine ⟨.swapped key (k.derive privateKey) privateKey, ?_, Or.inr ⟨n, rfl, ?_, rfl⟩⟩
    · exact keyInv_updatePublicKey h rfl hm (hcond.pairs rfl) (fun hs => hcond.alone hs rfl)
        (congrArg Db.Tables.devices htables)
    · obtain ⟨d, hd⟩ := h
      have hpos := rowsAffected_pos hd.row.mem hd.row.owned
      omega

theorem follows_encrypt {what : String} {m : KeyNote}
    (hobl : KeyObl (.rotateKeys privateKey) (.encrypt privateKey) m) :
    KeyFollows k strict i (.rotateKeys privateKey)
      (fun r m' => r = .ok (.encrypted privateKey) ∧ m' = m)
      (encrypt privateKey what) m := by
  refine follows_lift hobl ?_
  rintro s μ ok h rfl hcond
  have hok : ok = true := hcond.succeeds rfl
  subst hok
  refine ⟨μ i, ?_, rfl, rfl⟩
  rw [Function.update_eq_self]
  exact h

theorem follows_setPrivateKeyEncrypted :
    KeyFollows k strict i (.rotateKeys privateKey)
      (fun (r : Except ApiError Nat) m' => (∃ n, r = .ok n) ∧ m' = .stored old new)
      (sql (.setPrivateKeyEncrypted k.userId k.deviceId (some (.encrypted privateKey))))
      (.swapped old new privateKey) := by
  refine follows_lift (keyObl_swapped rfl) ?_
  intro s μ ok h hm hcond
  have hok : ok = true := hcond.succeeds rfl
  subst hok
  -- the database has no reason to reject the write
  obtain ⟨db', hrun⟩ := Db.updateDevices_of_unconstrained
    (p := Db.Devices.owned k.userId k.deviceId)
    (f := fun d => { d with privateKeyEncrypted := some (.encrypted privateKey) }) s.db
    fun _ => rfl
  have hsem : ApiCmd.sem
      (.sql (.setPrivateKeyEncrypted k.userId k.deviceId (some (.encrypted privateKey)))) true s =
      ({ s with db := db' },
        (.ok (rowsAffected (Db.Devices.owned k.userId k.deviceId) s.db.devices) :
          Except DbError Nat)) := by
    simp only [ApiCmd.sem, DbCall.run, Db.Devices.setPrivateKeyEncrypted, hrun]
    rfl
  rw [hsem]
  obtain ⟨htables, _⟩ := Db.updateDevices_eq_ok hrun
  refine ⟨.stored old new, ?_, ⟨_, rfl⟩, rfl⟩
  exact keyInv_setPrivateKey h rfl hm (congrArg Db.Tables.devices htables)

theorem follows_removeOld :
    KeyFollows k strict i (.rotateKeys privateKey)
      (fun r m' => (∃ b, r = .ok b) ∧ m' = .reading new)
      (call (.removePeer old)) (.stored old new) := by
  refine follows_lift (keyObl_stored rfl) ?_
  intro s μ ok h hm hcond
  refine ⟨.reading new, ?_, ⟨_, rfl⟩, rfl⟩
  cases ok with
  | false =>
      refine keyInv_swapPeer h hm (fun hs => ?_) rfl
      have hok := hcond.command hs rfl
      cases hok
  | true =>
      exact keyInv_swapPeer h hm (fun _ => rfl) rfl

end Rotation

section Handlers

/-- Rendering, the audit entry and the last lookup of a rotation. -/
theorem rotation_rest (userId deviceId : Uuid) :
    Attempt.Issues Quiet (do
      render
      audit "device.keys_rotated" (some deviceId)
      let stored ← sql (.findForUser userId deviceId)
      let _ ← okOr stored (.internal [.text "rotated device missing"])
      pure ()) := by
  refine issues_bind (issues_lift trivial) fun _ => ?_
  refine issues_bind (issues_lift trivial) fun _ => ?_
  refine issues_bind (issues_sql trivial) fun stored => ?_
  exact issues_bind (issues_okOr _ _) fun _ => issues_pure ()

theorem follows_rotateKeys (privateKey : String) :
    KeyFollows k strict i (.rotateKeys privateKey) (fun _ m' => m' = .idle)
      (k.handler (.rotateKeys privateKey)) .idle := by
  refine follows_currentUser.attempt_bind ?_ fun _ _ h => h.1
  rintro user m' ⟨rfl, hid⟩
  rw [hid user rfl]
  refine (follows_findForUser true).attempt_bind ?_ ?_
  swap
  · rintro e m' (⟨_, _, hm'⟩ | ⟨d, hd, _⟩)
    · exact hm'
    · cases hd
  rintro found m' (⟨_, he, _⟩ | ⟨d, hd, hrow, rfl⟩)
  · cases he
  cases hd
  -- the row is there and is not revoked
  refine follows_failIf ?_ fun _ => ?_
  · intro hrevoked
    exact absurd (beq_iff_eq.mp hrevoked) hrow.live
  refine follows_server rfl fun server => ?_
  refine follows_updatePublicKey.attempt_bind ?_ ?_
  swap
  · rintro e m' (⟨_, _, hm'⟩ | ⟨n, hn, _⟩)
    · exact hm'
    · cases hn
  rintro n m' (⟨_, he, _⟩ | ⟨n', hn, hpos, rfl⟩)
  · cases he
  cases hn
  refine follows_failIf ?_ fun _ => ?_
  · intro hzero
    exact absurd (beq_iff_eq.mp hzero) hpos
  -- from here on the rotation goes through to its end
  refine (follows_encrypt (keyObl_swapped rfl)).attempt_bind ?_ fun _ _ h => by cases h.1
  rintro encrypted m' ⟨henc, rfl⟩
  cases henc
  refine follows_setPrivateKeyEncrypted.attempt_bind ?_ fun _ _ h => by
    obtain ⟨⟨_, hn⟩, _⟩ := h
    cases hn
  rintro _ m' ⟨_, rfl⟩
  refine follows_removeOld.attempt_bind ?_ fun _ _ h => by
    obtain ⟨⟨_, hb⟩, _⟩ := h
    cases hb
  rintro _ m' ⟨_, rfl⟩
  refine (follows_addPeer rfl).attempt_bind ?_ fun _ _ h => h.2
  rintro _ m' ⟨_, rfl⟩
  exact follows_rest (rotation_rest _ _)

theorem liveDevice_of_readRow {d : Device} (h : ReadRow k d) :
    ∃ encrypted privateKey, Devices.liveDevice (some d) = some (d, encrypted) ∧
      encrypted.decrypt = some privateKey := by
  obtain ⟨privateKey, hkey⟩ := Option.ne_none_iff_exists'.mp h.key
  obtain ⟨encrypted, henc, hdec⟩ := Option.bind_eq_some_iff.mp hkey
  refine ⟨encrypted, privateKey, ?_, hdec⟩
  simp [Devices.liveDevice, h.live, henc]

theorem follows_reconnect {body : Devices.ConnectBody} {wasOffline : Bool} {draw : Devices.Draw}
    {device : Device} {encrypted : Ciphertext} {privateKey : String}
    (hdecrypt : encrypted.decrypt = some privateKey) :
    KeyFollows k strict i (.connect body wasOffline draw) (fun _ m' => m' = .idle)
      (Devices.reconnect device encrypted wasOffline) (.reading device.publicKey) := by
  unfold Devices.reconnect
  rw [hdecrypt]
  refine follows_server rfl fun server => ?_
  refine Follows.attempt_bind
    (follows_quiet (c := .render) trivial (keyObl_reading rfl) (KeyNote.clean_reading _)
      fun r => r.toOption.isSome) ?_ ?_
  · rintro _ m' rfl
    refine (follows_addPeer rfl).attempt_bind ?_ fun _ _ h => h.2
    rintro _ m' ⟨_, rfl⟩
    refine follows_rest ?_
    split
    · exact issues_lift trivial
    · exact issues_pure ()
  · rintro _ m' rfl
    rfl

theorem follows_connect (body : Devices.ConnectBody) (wasOffline : Bool) (draw : Devices.Draw) :
    KeyFollows k strict i (.connect body wasOffline draw) (fun _ m' => m' = .idle)
      (k.handler (.connect body wasOffline draw)) .idle := by
  refine follows_currentUser.attempt_bind ?_ fun _ _ h => h.1
  rintro user m' ⟨rfl, hid⟩
  rw [hid user rfl]
  refine (follows_findForUser true).attempt_bind ?_ ?_
  swap
  · rintro e m' (⟨_, _, hm'⟩ | ⟨d, hd, _⟩)
    · exact hm'
    · cases hd
  rintro found m' (⟨_, he, _⟩ | ⟨d, hd, hrow, rfl⟩)
  · cases he
  cases hd
  obtain ⟨encrypted, privateKey, hlive, hdecrypt⟩ := liveDevice_of_readRow hrow
  simp only [hlive]
  exact follows_reconnect hdecrypt

/-- The status change of a pause or an unpause, with what it holds in `hold`. -/
theorem follows_setPauseState {target : DeviceStatus} (htarget : target ≠ .revoked) (hold : Bool)
    (hop : hold = true →
      working op (.sql (.setStatus k.userId k.deviceId target)) = true)
    (hreflect : ∀ d : Device,
      KeyFollows k strict i op (fun _ m' => m' = .idle) (Devices.reflectStatus d target)
        (if hold then .reading d.publicKey else .idle)) :
    KeyFollows k strict i op (fun _ m' => m' = .idle)
      (Devices.setPauseState k.userId k.deviceId target) .idle := by
  refine (follows_findForUser hold).attempt_bind ?_ ?_
  swap
  · rintro e m' (⟨_, _, hm'⟩ | ⟨d, hd, _⟩)
    · exact hm'
    · cases hd
  rintro found m' (⟨_, he, _⟩ | ⟨d, hd, hrow, rfl⟩)
  · cases he
  cases hd
  have happly : KeyFollows k strict i op (fun _ m' => m' = .idle)
      (Devices.applyPauseState d target) (if hold then .reading d.publicKey else .idle) := by
    refine follows_failIf ?_ fun _ => ?_
    · intro hrevoked
      exact absurd (beq_iff_eq.mp hrevoked) hrow.live
    rw [hrow.owner, hrow.id]
    refine (follows_setStatus htarget ?_ ?_).attempt_bind ?_ ?_
    · cases hold with
      | false =>
          exact keyObl_idle _ _
      | true =>
          exact keyObl_reading (hop rfl)
    · cases hold with
      | false =>
          exact KeyNote.clean_idle
      | true =>
          exact KeyNote.clean_reading _
    · rintro n m' (⟨_, he, _⟩ | ⟨n', hn, hpos, rfl⟩)
      · cases he
      cases hn
      refine follows_failIf ?_ fun _ => hreflect d
      intro hzero
      exact absurd (beq_iff_eq.mp hzero) hpos
    · rintro e m' (⟨_, _, hm'⟩ | ⟨n, hn, _⟩)
      · exact hm'
      · cases hn
  refine happly.attempt_bind ?_ fun _ _ h => h
  rintro _ m' rfl
  exact follows_rest (issues_lift trivial)

theorem follows_pause :
    KeyFollows k strict i .pause (fun _ m' => m' = .idle) (k.handler .pause) .idle := by
  refine follows_currentUser.attempt_bind ?_ fun _ _ h => h.1
  rintro user m' ⟨rfl, hid⟩
  rw [hid user rfl]
  refine follows_setPauseState (by decide) false (fun h => by cases h) fun d => ?_
  refine follows_removePeer.attempt_bind ?_ fun _ _ h => h.2
  rintro _ m' ⟨_, rfl⟩
  rfl

theorem follows_unpause :
    KeyFollows k strict i .unpause (fun _ m' => m' = .idle) (k.handler .unpause) .idle := by
  refine follows_currentUser.attempt_bind ?_ fun _ _ h => h.1
  rintro user m' ⟨rfl, hid⟩
  rw [hid user rfl]
  refine follows_setPauseState (by decide) true (fun _ => rfl) fun d => ?_
  have hkeepalive : KeyFollows k strict i .unpause
      (fun r m' => (∃ n, r = .ok n) ∧ m' = .reading d.publicKey)
      (Devices.lookupKeepalive d.serverId) (.reading d.publicKey) := by
    have hfind : KeyFollows k strict i .unpause
        (fun r m' => (∃ a, r = .ok a) ∧ m' = .reading d.publicKey)
        (trySql (.findServer d.serverId)) (.reading d.publicKey) :=
      follows_call (c := .sql (.findServer d.serverId)) trivial (keyObl_reading rfl)
    refine hfind.attempt_bind ?_ fun _ _ h => by
      obtain ⟨⟨_, ha⟩, _⟩ := h
      cases ha
    rintro found m' ⟨_, rfl⟩
    split
    · exact ⟨⟨_, rfl⟩, rfl⟩
    · exact ⟨⟨_, rfl⟩, rfl⟩
    · exact ⟨⟨_, rfl⟩, rfl⟩
  refine hkeepalive.attempt_bind ?_ fun _ _ h => by
    obtain ⟨⟨_, hn⟩, _⟩ := h
    cases hn
  rintro keepalive m' ⟨_, rfl⟩
  refine (follows_addPeer rfl).attempt_bind ?_ fun _ _ h => h.2
  rintro _ m' ⟨_, rfl⟩
  rfl

/-- Every request keeps the invariant and leaves nothing half done. -/
theorem follows_handler (op : KeyOp) :
    KeyFollows k strict i op (fun _ m' => m' = .idle) (k.handler op) .idle := by
  cases op with
  | rotateKeys privateKey =>
      exact follows_rotateKeys privateKey
  | connect body wasOffline draw =>
      exact follows_connect body wasOffline draw
  | pause =>
      exact follows_pause
  | unpause =>
      exact follows_unpause

end Handlers

end Requests

section Main

variable (k) (strict)

/-- The notes of the requests that run. -/
abbrev KeyNoted (p : RequestPool KeyOp) (μ : Nat → KeyNote) : Prop :=
  Noted k.system (KeyInv k strict) KeyObl (KeyCond strict) (fun _ _ m => m = .idle) .idle p μ

variable {k strict} {p : RequestPool KeyOp} {e : PoolEvent KeyOp Unit}

/-- A request outside the time of a class of calls has nothing of it in its note. -/
theorem field_eq_none (h : KeyNoted k strict p μ) {P : KeyOp → ApiCmd → Bool}
    {field : KeyNote → Option String} (hidle : field .idle = none)
    (hobl : ∀ op c m, KeyObl op c m → field m ≠ none → P op c = true)
    (hnot : ∀ op c, nextCall p i = some (op, c) → P op c = false) : field (μ i) = none := by
  cases hc : nextCall p i with
  | none =>
      rcases h.settled hc with ⟨_, _, hm⟩ | hm
      · rw [hm, hidle]
      · rw [hm, hidle]
  | some tc =>
      by_contra hfield
      have hP := hobl tc.1 tc.2 (μ i) (h.suits hc) hfield
      rw [hnot tc.1 tc.2 hc] at hP
      cases hP

theorem owed_eq_none (h : KeyNoted k strict p μ)
    (hnot : ∀ op c, nextCall p i = some (op, c) → pairing op c = false) : (μ i).owed = none :=
  field_eq_none h rfl (fun _ _ _ hobl => hobl.owed) hnot

theorem old_eq_none (h : KeyNoted k strict p μ)
    (hnot : ∀ op c, nextCall p i = some (op, c) → swapping op c = false) : (μ i).old = none :=
  field_eq_none h rfl (fun _ _ _ hobl => hobl.old) hnot

theorem held_eq_none (h : KeyNoted k strict p μ)
    (hnot : ∀ op c, nextCall p i = some (op, c) → working op c = false) : (μ i).held = none :=
  field_eq_none h rfl (fun _ _ _ hobl => hobl.held) hnot

theorem not_swapping_of_not_working {op : KeyOp} {c : ApiCmd} (h : working op c = false) :
    swapping op c = false := by
  by_contra hswapping
  rw [working_of_swapping (Bool.eq_true_of_not_eq_false hswapping)] at h
  cases h

section Events

variable {window mid : KeyOp → ApiCmd → Bool}

/-- While a rotation writes the public key the others are outside the window. -/
theorem others_of_undisturbed {ok : Bool} {op : KeyOp} {c : ApiCmd}
    (h : undisturbed window mid p (.step i ok) = true) (hc : nextCall p i = some (op, c))
    (hrot : rotating op c = true) {j : Nat} (hji : j ≠ i) :
    ∀ op' c', nextCall p j = some (op', c') → window op' c' = false := by
  intro op' c' hj
  simp only [undisturbed, hc, Option.any_some, hrot, Bool.not_true, Bool.false_or,
    Bool.not_eq_true'] at h
  have hnot := not_of_someThread h hj
  simpa [hji] using hnot

theorem crash_of_undisturbed (h : undisturbed window mid p (.crash i) = true) :
    ∀ op c, nextCall p i = some (op, c) → mid op c = false := by
  intro op c hc
  simpa [undisturbed, hc] using h

theorem restart_of_undisturbed {g : Unit} (h : undisturbed window mid p (.restart g) = true)
    (j : Nat) : ∀ op c, nextCall p j = some (op, c) → mid op c = false := by
  intro op c hc
  simp only [undisturbed, Bool.not_eq_true'] at h
  exact not_of_someThread h hc

theorem ok_of_succeeds {P : KeyOp → ApiCmd → Bool} {ok : Bool} {op : KeyOp} {c : ApiCmd}
    (h : succeeds P p (.step i ok) = true) (hc : nextCall p i = some (op, c))
    (hP : P op c = true) : ok = true := by
  simpa [succeeds, hc, hP] using h

end Events

/-- The condition of a run, with that of the interface if the run is `strict`. -/
structure KeyEvent (strict : Prop) (p : RequestPool KeyOp) (e : PoolEvent KeyOp Unit) : Prop where
  pairs : pairsTogether p e = true
  alone : strict → swapsAlone p e = true
  commands : strict → commandsSucceed p e = true

/-- Every event of the run keeps the invariant. -/
theorem keyNoted_step (h : KeyNoted k strict p μ) (he : KeyEvent strict p e) :
    ∃ μ', KeyNoted k strict (poolStep k.system p e) μ' := by
  obtain ⟨hpairs, hsucceeds⟩ := Bool.and_eq_true_iff.mp he.pairs
  refine noted_step (fun i op _ => follows_handler op) h ?_ ?_ ?_
  · rintro i ok op c rfl hc
    refine ⟨?_, ok_of_succeeds hsucceeds hc, ?_, ?_⟩
    · intro hrot j hji
      exact owed_eq_none h (others_of_undisturbed hpairs hc hrot hji)
    · intro hs hrot j hji
      have hnot := others_of_undisturbed (he.alone hs) hc hrot hji
      refine ⟨held_eq_none h hnot, old_eq_none h ?_⟩
      intro op' c' hj
      exact not_swapping_of_not_working (hnot op' c' hj)
    · intro hs hcommand
      exact ok_of_succeeds (he.commands hs) hc hcommand
  · rintro i op q rfl _
    refine keyInv_idle h.inv (owed_eq_none h (crash_of_undisturbed hpairs)) ?_
    intro hs
    exact old_eq_none h (crash_of_undisturbed (he.alone hs))
  · rintro g rfl
    refine keyInv_restart h.inv (fun i => owed_eq_none h (restart_of_undisturbed hpairs i)) ?_
    intro hs i
    exact old_eq_none h (restart_of_undisturbed (he.alone hs) i)

theorem keyNoted_idle (hs : k.Stored s) (honly : strict → k.OnlyKey s) :
    KeyNoted k strict (requestIdle s) fun _ => .idle := by
  obtain ⟨d, hmem, hid, howner, hlive, hpair⟩ := hs
  refine noted_init ⟨d, ⟨hmem, hid, howner, hlive, ?_⟩, ?_, fun _ => hpair, ?_⟩
  · intro hnone
    simp [KeySetting.pairMatches, hnone] at hpair
  · intro i privateKey hi
    cases hi
  · intro hstrict
    refine ⟨?_, ?_⟩
    · intro i key hi
      cases hi
    · intro key peer hkey hip
      exact Or.inl (honly hstrict d hmem hid key peer hkey hip)

theorem not_rotation (h : noRotation p = true) {op : KeyOp} {c : ApiCmd}
    (hc : nextCall p i = some (op, c)) : swapping op c = false := by
  by_contra hswapping
  have hrot := isRotation_of_swapping (Bool.eq_true_of_not_eq_false hswapping)
  simp only [noRotation, Bool.not_eq_true'] at h
  rw [not_of_someThread h hc] at hrot
  cases hrot

theorem not_pairing_of_not_swapping {op : KeyOp} {c : ApiCmd} (h : swapping op c = false) :
    pairing op c = false := by
  by_contra hpairing
  rw [swapping_of_pairing (Bool.eq_true_of_not_eq_false hpairing)] at h
  cases h

/-- Without a rotation the pair matches. -/
theorem pairMatches_of_noted (h : KeyNoted k strict p μ) (hp : noRotation p = true) :
    k.PairMatches p.shared := by
  obtain ⟨d, hd⟩ := h.inv
  intro d' hd' hid
  rw [keyRow_unique hd.row hd' hid]
  refine hd.pair fun i => owed_eq_none h ?_
  intro op c hc
  exact not_pairing_of_not_swapping (not_rotation hp hc)

/-- Without a rotation the interface has the key of the row only. -/
theorem onlyKey_of_noted (h : KeyNoted k True p μ) (hp : noRotation p = true) :
    k.OnlyKey p.shared := by
  obtain ⟨d, hd⟩ := h.inv
  intro d' hd' hid key peer hkey hip
  rw [keyRow_unique hd.row hd' hid] at hip ⊢
  refine ((hd.interface trivial).keys key peer hkey hip).resolve_right ?_
  rintro ⟨j, hj⟩
  rw [old_eq_none h fun op c hc => not_rotation hp hc] at hj
  cases hj

/--
In an interleaving of rotations, connects, pauses and unpauses on a device that
is stored with its key pair, whenever no rotation is in flight,

* the pair matches, if every rotation that wrote its public key also wrote its
  private key before another rotation wrote, and
* the `public_key` is the only key of the device on the interface, if moreover
  the commands succeeded and no rotation wrote while another request had read the
  row and was not done with its key.
-/
theorem rotation_consistent (k : KeySetting) (s : Sys) (es : List (PoolEvent KeyOp Unit))
    (hs : k.Stored s) :
    (Along (poolStep k.system) (fun p e => pairsTogether p e = true) (requestIdle s) es →
      Always (poolStep k.system) (fun p => noRotation p = true → k.PairMatches p.shared)
        (requestIdle s) es) ∧
    (k.OnlyKey s →
      Along (poolStep k.system)
        (fun p e => pairsTogether p e = true ∧ swapsAlone p e = true ∧ commandsSucceed p e = true)
        (requestIdle s) es →
      Always (poolStep k.system) (fun p => noRotation p = true → k.OnlyKey p.shared)
        (requestIdle s) es) := by
  constructor
  · intro hes
    refine always_of_along (fun p => ∃ μ, KeyNoted k False p μ) ?_ ?_ ?_ hes
    · rintro p e ⟨μ, hμ⟩ he
      exact keyNoted_step hμ ⟨he, False.elim, False.elim⟩
    · rintro p ⟨μ, hμ⟩
      exact pairMatches_of_noted hμ
    · exact ⟨_, keyNoted_idle hs False.elim⟩
  · intro honly hes
    refine always_of_along (fun p => ∃ μ, KeyNoted k True p μ) ?_ ?_ ?_ hes
    · rintro p e ⟨μ, hμ⟩ ⟨hpairs, halone, hcommands⟩
      exact keyNoted_step hμ ⟨hpairs, fun _ => halone, fun _ => hcommands⟩
    · rintro p ⟨μ, hμ⟩
      exact onlyKey_of_noted hμ
    · exact ⟨_, keyNoted_idle hs fun _ => honly⟩

section Sample

/-- Three key pairs, as `derive_public_key` has them. -/
def samplePrivateKey : String := "AAQEBAQEBAQEBAQEBAQEBAQEBAQEBAQEBAQEBAQEBEQ="

def samplePublicKey : String := "rAGyIJ6GNU+4UyN7XeD0+rE8f8v0M6YcAZNpYX/s8Qs="

def sampleNextPrivateKey : String := "AAUFBQUFBQUFBQUFBQUFBQUFBQUFBQUFBQUFBQUFBUU="

def sampleNextPublicKey : String := "UKYUCbHd0DJemxa3AOcZ6XcsBwALG9d4bpB8ZT0gSV0="

def sampleLastPrivateKey : String := "AAYGBgYGBgYGBgYGBgYGBgYGBgYGBgYGBgYGBgYGBkY="

def sampleLastPublicKey : String := "9bLW5g+Ud+MQwpgtqqbJE2wQihd3xZR+RI+jfWgXRVc="

def sampleDerive (privateKey : String) : String :=
  if privateKey == samplePrivateKey then samplePublicKey
  else if privateKey == sampleNextPrivateKey then sampleNextPublicKey
  else if privateKey == sampleLastPrivateKey then sampleLastPublicKey
  else ""

/-- The device 20 of the user 2. -/
def sampleSetting : KeySetting := ⟨sampleDerive, 2, 20⟩

def sampleDevice : Device :=
  Db.Devices.NewDevice.row 20
    { userId := 2, serverId := 10, name := "laptop", publicKey := samplePublicKey
      presharedKeyEncrypted := none, allocatedIp := .v4 0x0A0A0002
      privateKeyEncrypted := some (.encrypted samplePrivateKey) }

/-- The device is connected. -/
def sampleKeyed : Sys where
  db :=
    { toTables := { sampleTables with devices := [sampleDevice] }
      valid := by decide }
  allocators _ := none
  interface := Interface.empty.addPeer samplePublicKey ⟨sampleDevice.allocatedIp, none, 25⟩
  up := true
  inFlight := []

/-- Some calls of one request, one after the other. -/
def sampleSteps (i n : Nat) : List (PoolEvent KeyOp Unit) := List.replicate n (.step i true)

theorem rotation_consistent_sample :
    Always (poolStep sampleSetting.system)
        (fun p => noRotation p = true → sampleSetting.PairMatches p.shared)
        (requestIdle sampleKeyed) (.spawn (.rotateKeys sampleNextPrivateKey) :: sampleSteps 0 11) ∧
      Always (poolStep sampleSetting.system)
        (fun p => noRotation p = true → sampleSetting.OnlyKey p.shared)
        (requestIdle sampleKeyed)
        (.spawn (.rotateKeys sampleNextPrivateKey) :: sampleSteps 0 11) := by
  have hstored : sampleSetting.Stored sampleKeyed := by decide
  refine ⟨(rotation_consistent sampleSetting sampleKeyed _ hstored).1 (by decide),
    (rotation_consistent sampleSetting sampleKeyed _ hstored).2 ?_ (by decide)⟩
  intro d hd _ key peer hkey _
  rw [List.mem_singleton.mp hd]
  by_contra hne
  have hnone : sampleKeyed.interface key = none := Interface.addPeer_of_ne hne
  rw [hnone] at hkey
  cases hkey

/-- The write of the private key fails after that of the public key. -/
def sampleTorn : List (PoolEvent KeyOp Unit) :=
  PoolEvent.spawn (KeyOp.rotateKeys sampleNextPrivateKey) ::
    (sampleSteps 0 5 ++ [PoolEvent.step 0 false])

/-- Two rotations overlap and every call succeeds. -/
def sampleOverlap : List (PoolEvent KeyOp Unit) :=
  [PoolEvent.spawn (KeyOp.rotateKeys sampleNextPrivateKey),
      PoolEvent.spawn (KeyOp.rotateKeys sampleLastPrivateKey)] ++
    sampleSteps 0 4 ++ sampleSteps 1 11 ++ sampleSteps 0 7

/-- A connect that has read the old key adds its peer after a rotation. -/
def sampleLateConnect : List (PoolEvent KeyOp Unit) :=
  [PoolEvent.spawn (KeyOp.connect ⟨none, none, none, none⟩ false ⟨21, "", ""⟩),
      PoolEvent.spawn (KeyOp.rotateKeys sampleNextPrivateKey)] ++
    sampleSteps 0 4 ++ sampleSteps 1 11 ++ sampleSteps 0 1

/-- A failing statement and an overlapping rotation pair a public key with another
private key, and a connect brings the old key back. -/
theorem rotation_tears_pair :
    ¬Always (poolStep sampleSetting.system)
        (fun p => noRotation p = true → sampleSetting.PairMatches p.shared)
        (requestIdle sampleKeyed) sampleTorn ∧
      ¬Always (poolStep sampleSetting.system)
        (fun p => noRotation p = true → sampleSetting.PairMatches p.shared)
        (requestIdle sampleKeyed) sampleOverlap ∧
      ¬Always (poolStep sampleSetting.system)
        (fun p => noRotation p = true → sampleSetting.OnlyKey p.shared)
        (requestIdle sampleKeyed) sampleLateConnect := by
  refine ⟨?_, ?_, ?_⟩
  · intro h
    exact absurd h.last (by decide)
  · intro h
    exact absurd h.last (by decide)
  · intro h
    have honly := h.last (by decide)
      { sampleDevice with
        publicKey := sampleNextPublicKey
        privateKeyEncrypted := some (.encrypted sampleNextPrivateKey) } (by decide) rfl
      samplePublicKey ⟨sampleDevice.allocatedIp, none, 25⟩ (by decide) rfl
    revert honly
    decide

end Sample

end Main

end Invariant

end Api
end ZeroVpn
