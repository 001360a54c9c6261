import ZeroVpn.Db.Calendar

/-!
# Repository functions

The queries of `crates/zerovpn-db/src/repos/{users,devices,servers,quota}.rs`.
A query is a function of the database; a statement that writes is a `Tx`.
Fresh identifiers and the clock are arguments.  `ORDER BY` is kept where a
caller takes the first row only.

Each write is an `UPDATE` of one table or an `INSERT`, and the lemmas at the
beginning say once what these leave behind.
-/

namespace ZeroVpn

open Library

namespace Db

section Writes

/-- `UPDATE users SET f WHERE p`, returning `rows_affected`. -/
def updateUsers (p : User → Bool) (f : User → User) : Tx Nat := fun db => do
  let db' ← write { db.toTables with users := updateWhere p f db.users }
  pure (rowsAffected p db.users, db')

/-- `UPDATE devices SET f WHERE p`, returning `rows_affected`. -/
def updateDevices (p : Device → Bool) (f : Device → Device) : Tx Nat := fun db => do
  let db' ← write { db.toTables with devices := updateWhere p f db.devices }
  pure (rowsAffected p db.devices, db')

/-- `UPDATE servers SET f WHERE p`. -/
def updateServers (p : Server → Bool) (f : Server → Server) : Tx Unit := fun db => do
  let db' ← write { db.toTables with servers := updateWhere p f db.servers }
  pure ((), db')

theorem updateUsers_eq_ok {p : User → Bool} {f : User → User} {db db' : Db} {n : Nat}
    (h : updateUsers p f db = .ok (n, db')) :
    db'.toTables = { db.toTables with users := updateWhere p f db.users } ∧
      n = rowsAffected p db.users :=
  write_return_eq_ok h

theorem updateDevices_eq_ok {p : Device → Bool} {f : Device → Device} {db db' : Db}
    {n : Nat} (h : updateDevices p f db = .ok (n, db')) :
    db'.toTables = { db.toTables with devices := updateWhere p f db.devices } ∧
      n = rowsAffected p db.devices :=
  write_return_eq_ok h

theorem updateServers_eq_ok {p : Server → Bool} {f : Server → Server} {db db' : Db}
    (h : updateServers p f db = .ok ((), db')) :
    db'.toTables = { db.toTables with servers := updateWhere p f db.servers } :=
  (write_return_eq_ok h).1

/-- An update of `users` that only moves the monthly counters is accepted. -/
theorem updateUsers_of_counters {p : User → Bool} {f : User → User} (db : Db)
    (hf : ∀ u, f u =
      { u with
        currentMonthBytes := (f u).currentMonthBytes
        quotaResetsAt := (f u).quotaResetsAt })
    (hrange : ∀ u ∈ db.users, p u = true → inI64 (f u).currentMonthBytes) :
    ∃ db', updateUsers p f db = .ok (rowsAffected p db.users, db') := by
  have hv := db.valid
  have hid : (updateWhere p f db.users).map User.id = db.users.map User.id :=
    map_updateWhere (fun u => by rw [hf u]) _
  have hemail : (updateWhere p f db.users).map User.email = db.users.map User.email :=
    map_updateWhere (fun u => by rw [hf u]) _
  have hvalid : ({ db.toTables with users := updateWhere p f db.users } : Tables).Valid :=
    { hv with
      users_id := by
        rw [hid]
        exact hv.users_id
      users_email := by
        rw [hemail]
        exact hv.users_email
      users_range := forall_updateWhere hv.users_range fun u hu hp _ => hrange u hu hp
      devices_user := by
        rw [hid]
        exact hv.devices_user }
  refine ⟨⟨_, hvalid⟩, ?_⟩
  unfold updateUsers
  rw [write_of_valid hvalid]
  rfl

/-- An update of `devices` that keeps the constrained columns is accepted; a
status may change as long as the device keeps its address or stays without. -/
theorem updateDevices_of_kept {p : Device → Bool} {f : Device → Device} (db : Db)
    (hf : ∀ d, f d =
      { d with
        status := (f d).status
        privateKeyEncrypted := (f d).privateKeyEncrypted
        monthlyByteCap := (f d).monthlyByteCap
        currentMonthBytes := (f d).currentMonthBytes
        quotaResetsAt := (f d).quotaResetsAt
        autoPaused := (f d).autoPaused })
    (hlive : ∀ d ∈ db.devices, p d = true → (f d).live = d.live)
    (hrange : ∀ d ∈ db.devices, p d = true → inI64 (f d).currentMonthBytes) :
    ∃ db', updateDevices p f db = .ok (rowsAffected p db.devices, db') := by
  have hv := db.valid
  have hid : (updateWhere p f db.devices).map Device.id = db.devices.map Device.id :=
    map_updateWhere (fun d => by rw [hf d]) _
  have hkey : (updateWhere p f db.devices).map Device.publicKey =
      db.devices.map Device.publicKey :=
    map_updateWhere (fun d => by rw [hf d]) _
  have haddress : ((updateWhere p f db.devices).filter Device.live).map
      (fun d => (d.serverId, d.allocatedIp)) =
      (db.devices.filter Device.live).map fun d => (d.serverId, d.allocatedIp) :=
    filter_map_updateWhere hlive fun d _ _ => by rw [hf d]
  have hvalid : ({ db.toTables with devices := updateWhere p f db.devices } : Tables).Valid :=
    { hv with
      devices_id := by
        rw [hid]
        exact hv.devices_id
      devices_publicKey := by
        rw [hkey]
        exact hv.devices_publicKey
      devices_address := by
        rw [haddress]
        exact hv.devices_address
      devices_user := forall_updateWhere hv.devices_user fun d _ _ h => by
        rw [hf d]
        exact h
      devices_server := forall_updateWhere hv.devices_server fun d _ _ h => by
        rw [hf d]
        exact h
      devices_range := forall_updateWhere hv.devices_range fun d hd hp h => by
        refine ⟨hrange d hd hp, ?_⟩
        rw [hf d]
        exact h.2
      checkpoints_fk := by
        rw [hid]
        exact hv.checkpoints_fk }
  refine ⟨⟨_, hvalid⟩, ?_⟩
  unfold updateDevices
  rw [write_of_valid hvalid]
  rfl

/-- An update of unconstrained columns of `devices` is always accepted. -/
theorem updateDevices_of_unconstrained {p : Device → Bool} {f : Device → Device} (db : Db)
    (hf : ∀ d, f d =
      { d with
        privateKeyEncrypted := (f d).privateKeyEncrypted
        monthlyByteCap := (f d).monthlyByteCap }) :
    ∃ db', updateDevices p f db = .ok (rowsAffected p db.devices, db') := by
  refine updateDevices_of_kept db ?_ ?_ ?_
  · intro d
    rw [hf d]
  · intro d _ _
    rw [hf d]
    rfl
  · intro d hd _
    rw [hf d]
    exact (db.valid.devices_range d hd).1

end Writes

namespace Users

/-- Rows that are not soft-deleted. -/
def present (id : Uuid) (u : User) : Bool := u.id == id && u.deletedAt.isNone

def findById (id : Uuid) (db : Db) : Option User :=
  db.users.find? (present id)

def findByEmail (email : Email) (db : Db) : Option User :=
  db.users.find? fun u => u.email == email && u.deletedAt.isNone

/-- The device cap, 5 when the user is gone. -/
def deviceLimit (id : Uuid) (db : Db) : Int :=
  match findById id db with
  | some u => u.deviceLimit
  | none => 5

/-- The account cap of `month_quota`. -/
def monthQuota (id : Uuid) (db : Db) : Option (Option Int) :=
  (findById id db).map User.monthlyByteCap

def countActiveAdmins (db : Db) : Nat :=
  (db.users.filter fun u =>
    u.role == .admin && u.status == .active && u.deletedAt.isNone).length

def create (id : Uuid) (email : Email) (role : UserRole) (status : UserStatus) :
    Tx Uuid := fun db => do
  let row : User :=
    { id := id, email := email, role := role, status := status, deletedAt := none
      deviceLimit := 5, monthlyByteCap := none, currentMonthBytes := 0
      quotaResetsAt := none }
  let db' ← write { db.toTables with users := db.users ++ [row] }
  pure (id, db')

def adminSetStatus (id : Uuid) (status : UserStatus) : Tx Nat :=
  updateUsers (present id) fun u => { u with status := status }

def adminSetRole (id : Uuid) (role : UserRole) : Tx Nat :=
  updateUsers (present id) fun u => { u with role := role }

/-- The statement of `main.rs` that promotes the bootstrap administrator. -/
def promoteBootstrapAdmin (id : Uuid) : Tx Nat :=
  updateUsers (fun u => u.id == id)
    fun u => { u with role := .admin, status := .active }

/-- `soft_delete`: one transaction over users and devices. -/
def softDelete (id : Uuid) (now : Int) : Tx Unit := do
  let _ ← updateUsers (fun u => u.id == id) fun u =>
    { u with
      deletedAt := some (toTimestamp now)
      status := .deleted
      email := .deletedAccount u.id }
  let _ ← updateDevices (fun d => d.userId == id) fun d =>
    { d with status := .revoked }
  pure ()

theorem softDelete_eq_ok {id : Uuid} {now : Int} {db db' : Db}
    (h : softDelete id now db = .ok ((), db')) :
    db'.users = updateWhere (fun u => u.id == id)
        (fun u => { u with
          deletedAt := some (toTimestamp now)
          status := .deleted
          email := .deletedAccount u.id }) db.users ∧
      db'.devices = updateWhere (fun d => d.userId == id)
        (fun d => { d with status := .revoked }) db.devices := by
  unfold softDelete at h
  obtain ⟨n, db₁, hu, h⟩ := tx_bind_eq_ok.mp h
  obtain ⟨n', db₂, hd, h⟩ := tx_bind_eq_ok.mp h
  obtain ⟨htables₁, _⟩ := updateUsers_eq_ok hu
  obtain ⟨htables₂, _⟩ := updateDevices_eq_ok hd
  cases h
  rw [htables₂, htables₁]
  exact ⟨rfl, rfl⟩

/-- The tables after the row of a user and everything that cascades from it
are gone. -/
def withoutUser (id : Uuid) (t : Tables) : Tables :=
  let gone := (t.devices.filter fun d => d.userId == id).map Device.id
  { t with
    users := t.users.filter fun u => u.id != id
    devices := t.devices.filter fun d => d.userId != id
    checkpoints := t.checkpoints.filter fun c => !gone.contains c.deviceId
    samples := t.samples.filter fun b => !gone.contains b.deviceId }

/-- `hard_delete`: purge the samples, then the user with its cascade. -/
def hardDelete (id : Uuid) : Tx Unit := fun db => do
  let db' ← write (withoutUser id db.toTables)
  pure ((), db')

end Users

namespace Devices

/-- The `WHERE` clause of the statements scoped to an owner. -/
def owned (userId deviceId : Uuid) (d : Device) : Bool :=
  d.userId == userId && d.id == deviceId

def listForUser (userId : Uuid) (db : Db) : List Device :=
  db.devices.filter fun d => d.userId == userId && d.status != .revoked

def findForUser (userId deviceId : Uuid) (db : Db) : Option Device :=
  db.devices.find? (owned userId deviceId)

def getById (id : Uuid) (db : Db) : Option Device :=
  db.devices.find? fun d => d.id == id

def allocatedIpsForServer (serverId : Uuid) (db : Db) : List Wg.IpAddr :=
  (db.devices.filter fun d => d.serverId == serverId && d.status != .revoked).map
    Device.allocatedIp

structure NewDevice where
  userId : Uuid
  serverId : Uuid
  name : String
  publicKey : String
  presharedKeyEncrypted : Option Ciphertext
  allocatedIp : Wg.IpAddr
  privateKeyEncrypted : Option Ciphertext
  deriving DecidableEq, Repr

/-- The row that an insert stores; the other columns take their defaults. -/
def NewDevice.row (id : Uuid) (d : NewDevice) : Device where
  id := id
  userId := d.userId
  serverId := d.serverId
  name := d.name
  publicKey := d.publicKey
  presharedKeyEncrypted := d.presharedKeyEncrypted
  allocatedIp := d.allocatedIp
  status := .active
  privateKeyEncrypted := d.privateKeyEncrypted
  monthlyByteCap := none
  currentMonthBytes := 0
  quotaResetsAt := none
  autoPaused := false
  lifetimeRxBytes := 0
  lifetimeTxBytes := 0

def create (id : Uuid) (d : NewDevice) : Tx Uuid := fun db => do
  let db' ← write { db.toTables with devices := db.devices ++ [d.row id] }
  pure (id, db')

def setPrivateKeyEncrypted (userId deviceId : Uuid) (encrypted : Option Ciphertext) :
    Tx Nat :=
  updateDevices (owned userId deviceId)
    fun d => { d with privateKeyEncrypted := encrypted }

def setStatus (userId deviceId : Uuid) (status : DeviceStatus) : Tx Nat :=
  updateDevices (owned userId deviceId) fun d => { d with status := status }

def updatePublicKey (userId deviceId : Uuid) (publicKey : String) : Tx Nat :=
  updateDevices (owned userId deviceId) fun d => { d with publicKey := publicKey }

def setQuota (deviceId : Uuid) (cap : Option Int) : Tx Nat :=
  updateDevices (fun d => d.id == deviceId) fun d => { d with monthlyByteCap := cap }

end Devices

namespace Servers

/-- `list_active`, ordered by name. -/
def listActive (db : Db) : List Server :=
  (db.servers.filter Server.isActive).insertionSort fun a b => a.name ≤ b.name

def findById (id : Uuid) (db : Db) : Option Server :=
  db.servers.find? fun s => s.id == id

/-- `default_key_state`: the oldest active server. -/
def defaultKeyState (db : Db) : Option Server :=
  ((db.servers.filter Server.isActive).insertionSort
    fun a b => a.createdAt ≤ b.createdAt).head?

structure NewServer where
  name : String
  publicKey : String
  privateKeyEncrypted : Ciphertext
  cidr : Wg.IpNetwork
  deriving DecidableEq, Repr

/-- `create`: active, with the default keepalive of 30 seconds. -/
def create (id : Uuid) (now : Int) (new : NewServer) : Tx Uuid := fun db => do
  let row : Server :=
    { id := id, name := new.name, publicKey := new.publicKey
      privateKeyEncrypted := some new.privateKeyEncrypted, cidr := new.cidr
      isActive := true, persistentKeepalive := 30, createdAt := toTimestamp now }
  let db' ← write { db.toTables with servers := db.servers ++ [row] }
  pure (id, db')

def setPrivateKey (id : Uuid) (encrypted : Ciphertext) : Tx Unit :=
  updateServers (fun s => s.id == id)
    fun s => { s with privateKeyEncrypted := some encrypted }

def setKeypair (id : Uuid) (publicKey : String) (encrypted : Ciphertext) : Tx Unit :=
  updateServers (fun s => s.id == id)
    fun s => { s with publicKey := publicKey, privateKeyEncrypted := some encrypted }

end Servers

namespace Quota

/-- A window whose reset instant has passed. -/
def due (now : Int) : Option Int → Bool
  | some at_ => decide (at_ < toTimestamp now)
  | none => false

def resetDueUsers (now next : Int) : Tx Nat :=
  updateUsers (fun u => due now u.quotaResetsAt && u.deletedAt.isNone)
    fun u => { u with currentMonthBytes := 0, quotaResetsAt := some (toTimestamp next) }

def resetDueDevices (now next : Int) : Tx Nat :=
  updateDevices (fun d => due now d.quotaResetsAt)
    fun d => { d with currentMonthBytes := 0, quotaResetsAt := some (toTimestamp next) }

/-- A counter that has reached a positive cap. -/
def overCap (cap : Option Int) (used : Int) : Bool :=
  match cap with
  | some c => decide (0 < c) && decide (c ≤ used)
  | none => false

/-- The active owner that the two candidate queries join. -/
def activeOwner (db : Db) (d : Device) (p : User → Bool) : Bool :=
  db.users.any fun u =>
    u.id == d.userId && u.status == .active && u.deletedAt.isNone && p u

def resumeCandidates (db : Db) : List Device :=
  db.devices.filter fun d =>
    d.autoPaused && d.status == .paused &&
      !overCap d.monthlyByteCap d.currentMonthBytes &&
      activeOwner db d fun u => !overCap u.monthlyByteCap u.currentMonthBytes

def pauseCandidates (db : Db) : List Device :=
  db.devices.filter fun d =>
    d.status == .active &&
      activeOwner db d fun u =>
        overCap d.monthlyByteCap d.currentMonthBytes ||
          overCap u.monthlyByteCap u.currentMonthBytes

def markAutoPaused (deviceId : Uuid) : Tx Nat :=
  updateDevices (fun d => d.id == deviceId && d.status == .active)
    fun d => { d with status := .paused, autoPaused := true }

def markResumed (deviceId : Uuid) : Tx Nat :=
  updateDevices
    (fun d => d.id == deviceId && d.status == .paused && d.autoPaused)
    fun d => { d with status := .active, autoPaused := false }

end Quota

end Db
end ZeroVpn
