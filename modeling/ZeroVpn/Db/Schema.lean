import ZeroVpn.Library.Rows
import ZeroVpn.Wg.IpAlloc
import Mathlib.Algebra.Group.Int.Defs
import Mathlib.Data.List.Sort
import Mathlib.Data.String.Basic

/-!
# The database schema

The tables of `migrations/` that the modelled code reads or writes, with the
columns it uses.  `Tables.Valid` collects what PostgreSQL enforces on them:
primary keys, unique indexes (also the partial one that frees the address of a
revoked device), foreign keys, `CHECK` clauses and the range of `BIGINT`.

A `Db` carries the proof that its tables are valid, so a statement can only
end in a valid database or in an error.  Instants of `TIMESTAMPTZ` columns are
microseconds since the epoch.
-/

namespace ZeroVpn

open Library

namespace Db

abbrev Uuid := BitVec 128

inductive UserRole where
  | admin
  | user
  deriving DecidableEq, Repr

inductive UserStatus where
  | active
  | suspended
  | pendingVerification
  | deleted
  deriving DecidableEq, Repr

inductive DeviceStatus where
  | active
  | paused
  | revoked
  deriving DecidableEq, Repr

/-- A `CITEXT` address up to the equality the database compares it by.  A
soft-deleted account holds the address `deleted-<id>@deleted.invalid`. -/
inductive Email where
  | address (folded : String)
  | deletedAccount (id : Uuid)
  deriving DecidableEq, Repr

/-- The ciphertexts of the key-encryption key: what was encrypted under it, or
bytes it does not open. -/
inductive Ciphertext where
  | encrypted (plaintext : String)
  | corrupt (tag : Nat)
  deriving DecidableEq, Repr

/-- `Kek::decrypt`, followed by the UTF-8 check of every caller. -/
def Ciphertext.decrypt : Ciphertext → Option String
  | .encrypted plaintext => some plaintext
  | .corrupt _ => none

structure User where
  id : Uuid
  email : Email
  role : UserRole
  status : UserStatus
  deletedAt : Option Int
  deviceLimit : Int
  monthlyByteCap : Option Int
  currentMonthBytes : Int
  quotaResetsAt : Option Int
  deriving DecidableEq, Repr

structure Server where
  id : Uuid
  name : String
  publicKey : String
  privateKeyEncrypted : Option Ciphertext
  cidr : Wg.IpNetwork
  isActive : Bool
  persistentKeepalive : Int
  createdAt : Int
  deriving DecidableEq, Repr

structure Device where
  id : Uuid
  userId : Uuid
  serverId : Uuid
  name : String
  publicKey : String
  presharedKeyEncrypted : Option Ciphertext
  allocatedIp : Wg.IpAddr
  status : DeviceStatus
  privateKeyEncrypted : Option Ciphertext
  monthlyByteCap : Option Int
  currentMonthBytes : Int
  quotaResetsAt : Option Int
  autoPaused : Bool
  lifetimeRxBytes : Int
  lifetimeTxBytes : Int
  deriving DecidableEq, Repr

/-- A row of `peer_usage_checkpoints`. -/
structure Checkpoint where
  deviceId : Uuid
  publicKey : String
  sourceGeneration : String
  counterEpoch : Int
  rawServerRxBytes : Int
  rawServerTxBytes : Int
  sampledAt : Int
  deriving DecidableEq, Repr

/-- A row of `server_vpn_usage`. -/
structure ServerUsage where
  serverId : Uuid
  totalServerRxBytes : Int
  totalServerTxBytes : Int
  deriving DecidableEq, Repr

/-- A row of `bandwidth_samples`. -/
structure Sample where
  deviceId : Uuid
  sampledAt : Int
  rxBytes : Int
  txBytes : Int
  deriving DecidableEq, Repr

structure Tables where
  users : List User
  servers : List Server
  devices : List Device
  checkpoints : List Checkpoint
  serverUsage : List ServerUsage
  samples : List Sample
  deriving DecidableEq, Repr

/-- The range of `BIGINT` and of `i64`. -/
def inI64 (n : Int) : Prop := -2 ^ 63 ≤ n ∧ n < 2 ^ 63

instance (n : Int) : Decidable (inI64 n) :=
  inferInstanceAs (Decidable (_ ∧ _))

/-- A device that still occupies its address. -/
def Device.live (d : Device) : Bool := d.status != .revoked

namespace Tables

/-- What the database enforces on its tables. -/
structure Valid (t : Tables) : Prop where
  users_id : (t.users.map User.id).Nodup
  users_email : (t.users.map User.email).Nodup
  users_range : ∀ u ∈ t.users, inI64 u.currentMonthBytes
  servers_id : (t.servers.map Server.id).Nodup
  servers_name : (t.servers.map Server.name).Nodup
  servers_keepalive : ∀ s ∈ t.servers,
    0 ≤ s.persistentKeepalive ∧ s.persistentKeepalive ≤ 3600
  devices_id : (t.devices.map Device.id).Nodup
  devices_publicKey : (t.devices.map Device.publicKey).Nodup
  devices_address :
    ((t.devices.filter Device.live).map fun d => (d.serverId, d.allocatedIp)).Nodup
  devices_user : ∀ d ∈ t.devices, d.userId ∈ t.users.map User.id
  devices_server : ∀ d ∈ t.devices, d.serverId ∈ t.servers.map Server.id
  devices_range : ∀ d ∈ t.devices,
    inI64 d.currentMonthBytes ∧ inI64 d.lifetimeRxBytes ∧ inI64 d.lifetimeTxBytes
  checkpoints_device : (t.checkpoints.map Checkpoint.deviceId).Nodup
  checkpoints_fk : ∀ c ∈ t.checkpoints, c.deviceId ∈ t.devices.map Device.id
  checkpoints_range : ∀ c ∈ t.checkpoints,
    inI64 c.counterEpoch ∧ inI64 c.rawServerRxBytes ∧ inI64 c.rawServerTxBytes
  checkpoints_nonneg : ∀ c ∈ t.checkpoints,
    0 ≤ c.counterEpoch ∧ 0 ≤ c.rawServerRxBytes ∧ 0 ≤ c.rawServerTxBytes
  serverUsage_server : (t.serverUsage.map ServerUsage.serverId).Nodup
  serverUsage_fk : ∀ v ∈ t.serverUsage, v.serverId ∈ t.servers.map Server.id
  serverUsage_range : ∀ v ∈ t.serverUsage,
    inI64 v.totalServerRxBytes ∧ inI64 v.totalServerTxBytes
  serverUsage_nonneg : ∀ v ∈ t.serverUsage,
    0 ≤ v.totalServerRxBytes ∧ 0 ≤ v.totalServerTxBytes
  samples_key : (t.samples.map fun b => (b.deviceId, b.sampledAt)).Nodup
  samples_range : ∀ b ∈ t.samples, inI64 b.rxBytes ∧ inI64 b.txBytes

theorem valid_iff (t : Tables) :
    t.Valid ↔
      ((t.users.map User.id).Nodup ∧ (t.users.map User.email).Nodup ∧
        (∀ u ∈ t.users, inI64 u.currentMonthBytes)) ∧
      ((t.servers.map Server.id).Nodup ∧ (t.servers.map Server.name).Nodup ∧
        (∀ s ∈ t.servers, 0 ≤ s.persistentKeepalive ∧ s.persistentKeepalive ≤ 3600)) ∧
      ((t.devices.map Device.id).Nodup ∧ (t.devices.map Device.publicKey).Nodup ∧
        ((t.devices.filter Device.live).map
          fun d => (d.serverId, d.allocatedIp)).Nodup ∧
        (∀ d ∈ t.devices, d.userId ∈ t.users.map User.id) ∧
        (∀ d ∈ t.devices, d.serverId ∈ t.servers.map Server.id) ∧
        (∀ d ∈ t.devices, inI64 d.currentMonthBytes ∧ inI64 d.lifetimeRxBytes ∧
          inI64 d.lifetimeTxBytes)) ∧
      ((t.checkpoints.map Checkpoint.deviceId).Nodup ∧
        (∀ c ∈ t.checkpoints, c.deviceId ∈ t.devices.map Device.id) ∧
        (∀ c ∈ t.checkpoints, inI64 c.counterEpoch ∧ inI64 c.rawServerRxBytes ∧
          inI64 c.rawServerTxBytes) ∧
        (∀ c ∈ t.checkpoints, 0 ≤ c.counterEpoch ∧ 0 ≤ c.rawServerRxBytes ∧
          0 ≤ c.rawServerTxBytes)) ∧
      ((t.serverUsage.map ServerUsage.serverId).Nodup ∧
        (∀ v ∈ t.serverUsage, v.serverId ∈ t.servers.map Server.id) ∧
        (∀ v ∈ t.serverUsage, inI64 v.totalServerRxBytes ∧
          inI64 v.totalServerTxBytes) ∧
        (∀ v ∈ t.serverUsage, 0 ≤ v.totalServerRxBytes ∧
          0 ≤ v.totalServerTxBytes)) ∧
      ((t.samples.map fun b => (b.deviceId, b.sampledAt)).Nodup ∧
        (∀ b ∈ t.samples, inI64 b.rxBytes ∧ inI64 b.txBytes)) := by
  constructor
  · intro h
    exact ⟨⟨h.users_id, h.users_email, h.users_range⟩,
      ⟨h.servers_id, h.servers_name, h.servers_keepalive⟩,
      ⟨h.devices_id, h.devices_publicKey, h.devices_address, h.devices_user,
        h.devices_server, h.devices_range⟩,
      ⟨h.checkpoints_device, h.checkpoints_fk, h.checkpoints_range,
        h.checkpoints_nonneg⟩,
      ⟨h.serverUsage_server, h.serverUsage_fk, h.serverUsage_range,
        h.serverUsage_nonneg⟩,
      ⟨h.samples_key, h.samples_range⟩⟩
  · rintro ⟨⟨u1, u2, u3⟩, ⟨s1, s2, s3⟩, ⟨d1, d2, d3, d4, d5, d6⟩, ⟨c1, c2, c3, c4⟩,
      ⟨v1, v2, v3, v4⟩, ⟨b1, b2⟩⟩
    exact ⟨u1, u2, u3, s1, s2, s3, d1, d2, d3, d4, d5, d6, c1, c2, c3, c4,
      v1, v2, v3, v4, b1, b2⟩

instance (t : Tables) : Decidable t.Valid :=
  decidable_of_iff' _ t.valid_iff

end Tables
end Db

/-- A database: tables together with the proof that they are valid. -/
structure Db extends Db.Tables where
  valid : toTables.Valid

namespace Db

/-- The errors of a statement. -/
inductive DbError where
  /-- The server reports a constraint violation or a value out of range. -/
  | constraint
  /-- `fetch_one` found no row. -/
  | rowNotFound
  /-- `sqlx::Error::Protocol`. -/
  | protocol (message : String)
  /-- The connection or the server failed; nothing was written. -/
  | unavailable
  deriving DecidableEq, Repr

/-- A statement or a transaction; an error discards what was written. -/
abbrev Tx (α : Type) := StateT Db (Except DbError) α

/-- A transaction that succeeds passed every statement before its end. -/
theorem tx_bind_eq_ok {α β : Type} {x : Tx α} {f : α → Tx β} {db db' : Db} {b : β} :
    (x >>= f) db = .ok (b, db') ↔
      ∃ a db₁, x db = .ok (a, db₁) ∧ f a db₁ = .ok (b, db') := by
  simp only [bind, StateT.bind, Except.bind]
  rcases x db with e | ⟨a, db₁⟩
  · simp
  · simp

/-- Write new tables, if the database accepts them. -/
def write (t : Tables) : Except DbError Db :=
  if h : t.Valid then .ok ⟨t, h⟩ else .error .constraint

theorem write_eq_ok {t : Tables} {db : Db} (h : write t = .ok db) :
    db.toTables = t := by
  unfold write at h
  split at h
  · injection h with h
    rw [← h]
  · cases h

/-- What an accepted write with answer `a` leaves behind. -/
theorem write_return_eq_ok {α : Type} {t : Tables} {a x : α} {db : Db}
    (h : (write t >>= fun db' => pure (a, db')) = .ok (x, db)) :
    db.toTables = t ∧ x = a := by
  cases hw : write t with
  | error e =>
      rw [hw] at h
      cases h
  | ok db' =>
      rw [hw] at h
      cases h
      exact ⟨write_eq_ok hw, rfl⟩

theorem write_of_valid {t : Tables} (h : t.Valid) :
    write t = .ok ⟨t, h⟩ := by
  unfold write
  rw [dif_pos h]

variable (db : Db)

/-- A live device owns its address on its server. -/
theorem address_unique {d d' : Device}
    (hd : d ∈ db.devices) (hd' : d' ∈ db.devices)
    (hlive : d.live = true) (hlive' : d'.live = true)
    (hserver : d.serverId = d'.serverId) (hip : d.allocatedIp = d'.allocatedIp) :
    d = d' := by
  apply row_unique db.valid.devices_address
  · exact List.mem_filter.mpr ⟨hd, hlive⟩
  · exact List.mem_filter.mpr ⟨hd', hlive'⟩
  · rw [hserver, hip]

/-- A public key belongs to one device. -/
theorem publicKey_unique {d d' : Device}
    (hd : d ∈ db.devices) (hd' : d' ∈ db.devices)
    (hkey : d.publicKey = d'.publicKey) :
    d = d' :=
  row_unique db.valid.devices_publicKey hd hd' hkey

/-- A device id names one device. -/
theorem deviceId_unique {d d' : Device}
    (hd : d ∈ db.devices) (hd' : d' ∈ db.devices) (hid : d.id = d'.id) :
    d = d' :=
  row_unique db.valid.devices_id hd hd' hid

/-- A user id names one user. -/
theorem userId_unique {u u' : User}
    (hu : u ∈ db.users) (hu' : u' ∈ db.users) (hid : u.id = u'.id) :
    u = u' :=
  row_unique db.valid.users_id hu hu' hid

end Db
end ZeroVpn
