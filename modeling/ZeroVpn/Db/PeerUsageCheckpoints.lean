import ZeroVpn.Db.Repos

/-!
# Durable accounting of peer counters

`account` of `crates/zerovpn-db/src/repos/peer_usage_checkpoints.rs`: one
transaction that turns a raw counter observation into a delta against the
stored checkpoint and books the delta on the device, the server, the user and
the sample of the instant.

`sampled_at` is an instant in nanoseconds.  The comparison with the stored
checkpoint uses it as it is; what is stored is its microsecond.
-/

namespace ZeroVpn

open Library

namespace Db

namespace PeerUsageCheckpoints

/-- The arguments of one call. -/
structure Observation where
  deviceId : Uuid
  userId : Uuid
  serverId : Uuid
  publicKey : String
  sourceGeneration : String
  serverRx : Int
  serverTx : Int
  sampledAt : Int
  hasHandshake : Bool
  deriving DecidableEq, Repr

structure AccountedUsage where
  serverRxDelta : Int
  serverTxDelta : Int
  elapsedSeconds : Int
  deviceLifetimeRx : Int
  deviceLifetimeTx : Int
  userQuota : Option (Int × Option Int)
  deriving DecidableEq, Repr

/-- A delta from the server's perspective. -/
structure Delta where
  serverRx : Int
  serverTx : Int
  deriving DecidableEq, Repr

def Delta.combined (x : Delta) : Int := x.serverTx + x.serverRx

/-- End the transaction with an error. -/
def failIf (c : Bool) (e : DbError) : Tx Unit :=
  fun db => if c then .error e else .ok ((), db)

/-- `fetch_one`. -/
def fetchOne {α : Type} (f : Db → Option α) : Tx α := fun db =>
  match f db with
  | some a => .ok (a, db)
  | none => .error .rowNotFound

/-- The checkpoint of a device. -/
def checkpointOf (deviceId : Uuid) (db : Db) : Option Checkpoint :=
  db.checkpoints.find? fun c => c.deviceId == deviceId

/-- The row of a first observation. -/
def Observation.baseline (a : Observation) : Checkpoint where
  deviceId := a.deviceId
  publicKey := a.publicKey
  sourceGeneration := a.sourceGeneration
  counterEpoch := 0
  rawServerRxBytes := a.serverRx
  rawServerTxBytes := a.serverTx
  sampledAt := toTimestamp a.sampledAt

/-- `INSERT … ON CONFLICT (device_id) DO NOTHING`; was the row inserted? -/
def insertCheckpoint (a : Observation) : Tx Bool := fun db =>
  if (checkpointOf a.deviceId db).isSome then .ok (false, db)
  else do
    let db' ← write { db.toTables with checkpoints := db.checkpoints ++ [a.baseline] }
    pure (true, db')

/-- The device has another key or the counters come from another source. -/
def Observation.changedSource (a : Observation) (old : Checkpoint) : Bool :=
  old.publicKey != a.publicKey || old.sourceGeneration != a.sourceGeneration

/-- A counter went backwards. -/
def Observation.regressed (a : Observation) (old : Checkpoint) : Bool :=
  decide (a.serverRx < old.rawServerRxBytes) || decide (a.serverTx < old.rawServerTxBytes)

/-- The observation is not newer than the checkpoint. -/
def Observation.stale (a : Observation) (old : Checkpoint) : Bool :=
  decide (a.sampledAt ≤ ofTimestamp old.sampledAt)

/-- The bytes since the checkpoint. -/
def Observation.delta (a : Observation) (old : Checkpoint) (inserted : Bool) : Delta :=
  if !a.hasHandshake || inserted || a.stale old then ⟨0, 0⟩
  else if a.changedSource old || a.regressed old then ⟨a.serverRx, a.serverTx⟩
  else ⟨a.serverRx - old.rawServerRxBytes, a.serverTx - old.rawServerTxBytes⟩

/-- The row of a newer observation. -/
def Observation.successor (a : Observation) (old : Checkpoint) : Checkpoint :=
  { old with
    publicKey := a.publicKey
    sourceGeneration := a.sourceGeneration
    counterEpoch :=
      if a.changedSource old || a.regressed old then old.counterEpoch + 1
      else old.counterEpoch
    rawServerRxBytes := a.serverRx
    rawServerTxBytes := a.serverTx
    sampledAt := toTimestamp a.sampledAt }

/-- Move the checkpoint to a newer observation. -/
def advanceCheckpoint (a : Observation) (old : Checkpoint) (inserted : Bool) : Tx Unit :=
  fun db =>
    if inserted || a.stale old then .ok ((), db)
    else do
      let db' ← write
        { db.toTables with
          checkpoints := updateWhere (fun c => c.deviceId == a.deviceId) a.successor
            db.checkpoints }
      pure ((), db')

/-- The monthly window has not been opened or is over at the instant. -/
def windowOver (resetsAt : Option Int) (at_ : Int) : Bool :=
  match resetsAt with
  | none => true
  | some r => decide (r < toTimestamp at_)

/-- The monthly counter and the end of its window after `bytes` more. -/
def rollMonth (bytes at_ : Int) (current : Int) (resetsAt : Option Int) : Int × Option Int :=
  if windowOver resetsAt at_ then
    (bytes, some (toTimestamp (firstOfNextMonth at_)))
  else (current + bytes, resetsAt)

/-- The device row after a delta. -/
def bookedDevice (a : Observation) (x : Delta) (d : Device) : Device :=
  { d with
    lifetimeRxBytes := d.lifetimeRxBytes + x.serverTx
    lifetimeTxBytes := d.lifetimeTxBytes + x.serverRx
    currentMonthBytes :=
      if 0 < x.combined then
        (rollMonth x.combined a.sampledAt d.currentMonthBytes d.quotaResetsAt).1
      else d.currentMonthBytes
    quotaResetsAt :=
      if 0 < x.combined then
        (rollMonth x.combined a.sampledAt d.currentMonthBytes d.quotaResetsAt).2
      else d.quotaResetsAt }

/-- `UPDATE devices … RETURNING`. -/
def bookDevice (a : Observation) (x : Delta) : Tx Device := do
  let _ ← updateDevices (fun d => d.id == a.deviceId) (bookedDevice a x)
  fetchOne (Devices.getById a.deviceId)

/-- The row that a delta adds for a server without a total. -/
def firstUsage (a : Observation) (x : Delta) : ServerUsage :=
  ⟨a.serverId, x.serverRx, x.serverTx⟩

def addUsage (x : Delta) (v : ServerUsage) : ServerUsage :=
  { v with
    totalServerRxBytes := v.totalServerRxBytes + x.serverRx
    totalServerTxBytes := v.totalServerTxBytes + x.serverTx }

/-- The upsert of `server_vpn_usage`. -/
def bookServer (a : Observation) (x : Delta) : Tx Unit := fun db => do
  let db' ← write
    { db.toTables with
      serverUsage := upsertRow (fun v => v.serverId == a.serverId) (firstUsage a x)
        (addUsage x) db.serverUsage }
  pure ((), db')

/-- The user row after a delta. -/
def bookedUser (a : Observation) (x : Delta) (u : User) : User :=
  { u with
    currentMonthBytes :=
      (rollMonth x.combined a.sampledAt u.currentMonthBytes u.quotaResetsAt).1
    quotaResetsAt :=
      (rollMonth x.combined a.sampledAt u.currentMonthBytes u.quotaResetsAt).2 }

/-- `UPDATE users … RETURNING`; a deleted user has no row here. -/
def bookUser (a : Observation) (x : Delta) : Tx User := do
  let _ ← updateUsers (Users.present a.userId) (bookedUser a x)
  fetchOne (Users.findById a.userId)

/-- The row that a delta adds at a new instant. -/
def firstSample (a : Observation) (x : Delta) : Sample :=
  ⟨a.deviceId, toTimestamp a.sampledAt, x.serverTx, x.serverRx⟩

def addSample (x : Delta) (b : Sample) : Sample :=
  { b with rxBytes := b.rxBytes + x.serverTx, txBytes := b.txBytes + x.serverRx }

/-- The sample of the observation's device and instant. -/
def atSample (a : Observation) (b : Sample) : Bool :=
  b.deviceId == a.deviceId && b.sampledAt == toTimestamp a.sampledAt

/-- The upsert of `bandwidth_samples`. -/
def bookSample (a : Observation) (x : Delta) : Tx Unit := fun db => do
  let db' ← write
    { db.toTables with
      samples := upsertRow (atSample a) (firstSample a x) (addSample x) db.samples }
  pure ((), db')

/-- The three further tables, written only for a positive delta. -/
def bookTraffic (a : Observation) (x : Delta) : Tx (Option (Int × Option Int)) :=
  if 0 < x.combined then do
    bookServer a x
    let user ← bookUser a x
    bookSample a x
    pure (some (user.currentMonthBytes, user.monthlyByteCap))
  else pure none

/-- Whole seconds since the checkpoint, at least one. -/
def Observation.elapsedSeconds (a : Observation) (old : Checkpoint) : Int :=
  max ((a.sampledAt - ofTimestamp old.sampledAt).tdiv 1000000000) 1

/-- `account`. -/
def account (a : Observation) : Tx AccountedUsage := do
  failIf (decide (a.serverRx < 0) || decide (a.serverTx < 0) || a.sourceGeneration.isEmpty)
    (.protocol "invalid WireGuard counter observation")
  let inserted ← insertCheckpoint a
  let old ← fetchOne (checkpointOf a.deviceId)
  advanceCheckpoint a old inserted
  failIf (!decide (inI64 (a.delta old inserted).combined))
    (.protocol "WireGuard counter delta overflow")
  let device ← bookDevice a (a.delta old inserted)
  let userQuota ← bookTraffic a (a.delta old inserted)
  pure
    { serverRxDelta := (a.delta old inserted).serverRx
      serverTxDelta := (a.delta old inserted).serverTx
      elapsedSeconds := a.elapsedSeconds old
      deviceLifetimeRx := device.lifetimeRxBytes
      deviceLifetimeTx := device.lifetimeTxBytes
      userQuota := userQuota }

/-- `server_totals`. -/
def serverTotals (serverId : Uuid) (db : Db) : Int × Int :=
  match db.serverUsage.find? fun v => v.serverId == serverId with
  | some v => (v.totalServerRxBytes, v.totalServerTxBytes)
  | none => (0, 0)

section Effect

variable {a : Observation} {x : Delta} {db db' : Db}

/-- The delta that an observation yields on a database. -/
def Observation.deltaIn (a : Observation) (db : Db) : Delta :=
  match checkpointOf a.deviceId db with
  | none => ⟨0, 0⟩
  | some old => a.delta old false

/-- The checkpoints after an observation. -/
def Observation.checkpointsIn (a : Observation) (db : Db) : List Checkpoint :=
  match checkpointOf a.deviceId db with
  | none => db.checkpoints ++ [a.baseline]
  | some old =>
      if a.stale old then db.checkpoints
      else updateWhere (fun c => c.deviceId == a.deviceId) a.successor db.checkpoints

theorem failIf_eq_ok {c : Bool} {e : DbError} {u : Unit} (h : failIf c e db = .ok (u, db')) :
    c = false ∧ db' = db := by
  unfold failIf at h
  split at h
  · cases h
  · rename_i hc
    cases h
    exact ⟨by simpa using hc, rfl⟩

theorem fetchOne_eq_ok {α : Type} {f : Db → Option α} {r : α}
    (h : fetchOne f db = .ok (r, db')) : f db = some r ∧ db' = db := by
  unfold fetchOne at h
  split at h
  · rename_i r' hr
    cases h
    exact ⟨hr, rfl⟩
  · cases h

theorem insertCheckpoint_eq_ok {inserted : Bool}
    (h : insertCheckpoint a db = .ok (inserted, db')) :
    (inserted = false ∧ checkpointOf a.deviceId db ≠ none ∧ db' = db) ∨
      (inserted = true ∧ checkpointOf a.deviceId db = none ∧
        db'.toTables = { db.toTables with checkpoints := db.checkpoints ++ [a.baseline] }) := by
  unfold insertCheckpoint at h
  split at h
  · rename_i hsome
    cases h
    exact Or.inl ⟨rfl, Option.isSome_iff_ne_none.mp hsome, rfl⟩
  · rename_i hnone
    obtain ⟨htables, hinserted⟩ := write_return_eq_ok h
    exact Or.inr ⟨hinserted, by simpa using hnone, htables⟩

theorem advanceCheckpoint_eq_ok {old : Checkpoint} {inserted : Bool} {u : Unit}
    (h : advanceCheckpoint a old inserted db = .ok (u, db')) :
    db'.toTables =
      { db.toTables with
        checkpoints :=
          if inserted || a.stale old then db.checkpoints
          else updateWhere (fun c => c.deviceId == a.deviceId) a.successor
            db.checkpoints } := by
  unfold advanceCheckpoint at h
  by_cases hskip : (inserted || a.stale old) = true
  · rw [if_pos hskip] at h ⊢
    cases h
    rfl
  · rw [if_neg hskip] at h ⊢
    exact (write_return_eq_ok h).1

/-- The checkpoint that was just inserted is read back. -/
theorem checkpointOf_inserted (hnone : checkpointOf a.deviceId db = none)
    (hdb' : db'.checkpoints = db.checkpoints ++ [a.baseline]) :
    checkpointOf a.deviceId db' = some a.baseline := by
  unfold checkpointOf at hnone ⊢
  rw [hdb', List.find?_append, hnone]
  simp [Observation.baseline]

theorem bookDevice_eq_ok {device : Device} (h : bookDevice a x db = .ok (device, db')) :
    db'.toTables =
        { db.toTables with
          devices := updateWhere (fun d => d.id == a.deviceId) (bookedDevice a x)
            db.devices } ∧
      ∃ d ∈ db.devices, d.id = a.deviceId ∧ device = bookedDevice a x d := by
  unfold bookDevice at h
  obtain ⟨n, db₁, hupdate, h⟩ := tx_bind_eq_ok.mp h
  obtain ⟨hfound, rfl⟩ := fetchOne_eq_ok h
  obtain ⟨htables, _⟩ := updateDevices_eq_ok hupdate
  refine ⟨htables, ?_⟩
  have hmem := List.mem_of_find?_eq_some hfound
  have hid := List.find?_some hfound
  rw [htables, mem_updateWhere] at hmem
  obtain ⟨d, hd, hdevice⟩ := hmem
  by_cases hkey : d.id = a.deviceId
  · rw [if_pos (by simpa using hkey)] at hdevice
    exact ⟨d, hd, hkey, hdevice⟩
  · rw [if_neg (by simpa using hkey)] at hdevice
    rw [hdevice] at hid
    exact absurd (by simpa using hid) hkey

/-- The tables after the further bookings. -/
def bookedTraffic (a : Observation) (x : Delta) (t : Tables) : Tables :=
  { t with
    serverUsage := upsertRow (fun v => v.serverId == a.serverId) (firstUsage a x)
      (addUsage x) t.serverUsage
    users := updateWhere (Users.present a.userId) (bookedUser a x) t.users
    samples := upsertRow (atSample a) (firstSample a x) (addSample x) t.samples }

theorem bookTraffic_eq_ok {quota : Option (Int × Option Int)}
    (h : bookTraffic a x db = .ok (quota, db')) :
    db'.toTables = if 0 < x.combined then bookedTraffic a x db.toTables else db.toTables := by
  unfold bookTraffic at h
  by_cases hpos : 0 < x.combined
  · rw [if_pos hpos] at h ⊢
    obtain ⟨_, db₁, hserver, h⟩ := tx_bind_eq_ok.mp h
    obtain ⟨user, db₂, huser, h⟩ := tx_bind_eq_ok.mp h
    obtain ⟨_, db₃, hsample, h⟩ := tx_bind_eq_ok.mp h
    obtain ⟨_, db₄, hupdate, hfetch⟩ := tx_bind_eq_ok.mp huser
    obtain ⟨_, rfl⟩ := fetchOne_eq_ok hfetch
    cases h
    rw [(write_return_eq_ok hsample).1, (updateUsers_eq_ok hupdate).1,
      (write_return_eq_ok hserver).1]
    rfl
  · rw [if_neg hpos] at h ⊢
    cases h
    rfl

/-- The tables after an accounted observation. -/
def Observation.booked (a : Observation) (db : Db) : Tables :=
  let t : Tables :=
    { db.toTables with
      checkpoints := a.checkpointsIn db
      devices := updateWhere (fun d => d.id == a.deviceId) (bookedDevice a (a.deltaIn db))
        db.devices }
  if 0 < (a.deltaIn db).combined then bookedTraffic a (a.deltaIn db) t else t

/-- What a successful call leaves behind. -/
theorem account_eq_ok {u : AccountedUsage} (h : account a db = .ok (u, db')) :
    db'.toTables = a.booked db ∧ (⟨u.serverRxDelta, u.serverTxDelta⟩ : Delta) = a.deltaIn db ∧
      (0 ≤ a.serverRx ∧ 0 ≤ a.serverTx) ∧
      ∃ d ∈ db.devices, d.id = a.deviceId := by
  unfold account at h
  obtain ⟨_, db₀, hvalid, h₁⟩ := tx_bind_eq_ok.mp h
  obtain ⟨hcounters, rfl⟩ := failIf_eq_ok hvalid
  simp only [Bool.or_eq_false_iff, decide_eq_false_iff_not, Int.not_lt] at hcounters
  obtain ⟨inserted, db₁, hinsert, h₂⟩ := tx_bind_eq_ok.mp h₁
  obtain ⟨old, db₁', hselect, h₃⟩ := tx_bind_eq_ok.mp h₂
  obtain ⟨hold, rfl⟩ := fetchOne_eq_ok hselect
  obtain ⟨_, db₂, hadvance, h₄⟩ := tx_bind_eq_ok.mp h₃
  obtain ⟨_, db₂', hoverflow, h₅⟩ := tx_bind_eq_ok.mp h₄
  obtain ⟨_, rfl⟩ := failIf_eq_ok hoverflow
  obtain ⟨device, db₃, hdevice, h₆⟩ := tx_bind_eq_ok.mp h₅
  obtain ⟨quota, db₄, htraffic, h₇⟩ := tx_bind_eq_ok.mp h₆
  cases h₇
  have hadvanced := advanceCheckpoint_eq_ok hadvance
  obtain ⟨hbooked, d, hd, hid, _⟩ := bookDevice_eq_ok hdevice
  have hrest := bookTraffic_eq_ok htraffic
  -- the delta and the checkpoints depend on whether the row was inserted
  have hstart : a.delta old inserted = a.deltaIn db₀ ∧
      db₂'.toTables = { db₀.toTables with checkpoints := a.checkpointsIn db₀ } := by
    rcases insertCheckpoint_eq_ok hinsert with ⟨rfl, _, rfl⟩ | ⟨rfl, hnone, htables⟩
    · constructor
      · simp only [Observation.deltaIn, hold]
      · rw [hadvanced]
        simp only [Observation.checkpointsIn, hold, Bool.false_or]
    · have hbase := checkpointOf_inserted hnone (by rw [htables])
      rw [hbase] at hold
      cases hold
      constructor
      · simp [Observation.deltaIn, hnone, Observation.delta]
      · rw [hadvanced, htables]
        simp only [Observation.checkpointsIn, hnone, Bool.true_or, if_true]
  obtain ⟨hdelta, htables⟩ := hstart
  rw [hdelta] at hbooked hrest
  refine ⟨?_, by rw [hdelta], hcounters.1, d, ?_, hid⟩
  · rw [hrest, hbooked, htables]
    rfl
  · rw [htables] at hd
    exact hd

/-- Traffic is booked on a user that is not deleted. -/
theorem bookTraffic_user {quota : Option (Int × Option Int)} (hpos : 0 < x.combined)
    (h : bookTraffic a x db = .ok (quota, db')) :
    ∃ v ∈ db.users, Users.present a.userId v = true := by
  unfold bookTraffic at h
  rw [if_pos hpos] at h
  obtain ⟨_, db₁, hserver, h⟩ := tx_bind_eq_ok.mp h
  obtain ⟨user, db₂, huser, _⟩ := tx_bind_eq_ok.mp h
  obtain ⟨_, db₃, hupdate, hfetch⟩ := tx_bind_eq_ok.mp huser
  obtain ⟨hfound, rfl⟩ := fetchOne_eq_ok hfetch
  have husers : db₁.users = db.users := by
    rw [(write_return_eq_ok hserver).1]
  have hmem := List.mem_of_find?_eq_some hfound
  rw [(updateUsers_eq_ok hupdate).1, husers] at hmem
  obtain ⟨v, hv, rfl⟩ := mem_updateWhere.mp hmem
  have hpresent := List.find?_some hfound
  refine ⟨v, hv, ?_⟩
  split at hpresent
  · exact hpresent
  · exact hpresent

/-- The user of an accounted delta. -/
theorem account_user {u : AccountedUsage} (h : account a db = .ok (u, db'))
    (hpos : 0 < (a.deltaIn db).combined) :
    ∃ v ∈ db.users, Users.present a.userId v = true := by
  have hdelta := (account_eq_ok h).2.1
  unfold account at h
  obtain ⟨_, db₀, hvalid, h₁⟩ := tx_bind_eq_ok.mp h
  obtain ⟨_, rfl⟩ := failIf_eq_ok hvalid
  obtain ⟨inserted, db₁, hinsert, h₂⟩ := tx_bind_eq_ok.mp h₁
  obtain ⟨old, db₁', hselect, h₃⟩ := tx_bind_eq_ok.mp h₂
  obtain ⟨_, rfl⟩ := fetchOne_eq_ok hselect
  obtain ⟨_, db₂, hadvance, h₄⟩ := tx_bind_eq_ok.mp h₃
  obtain ⟨_, db₂', hoverflow, h₅⟩ := tx_bind_eq_ok.mp h₄
  obtain ⟨_, rfl⟩ := failIf_eq_ok hoverflow
  obtain ⟨device, db₃, hdevice, h₆⟩ := tx_bind_eq_ok.mp h₅
  obtain ⟨quota, db₄, htraffic, h₇⟩ := tx_bind_eq_ok.mp h₆
  cases h₇
  rw [← hdelta] at hpos
  have husers : db₃.users = db₀.users := by
    rw [(bookDevice_eq_ok hdevice).1, advanceCheckpoint_eq_ok hadvance]
    rcases insertCheckpoint_eq_ok hinsert with ⟨_, _, rfl⟩ | ⟨_, _, htables⟩
    · rfl
    · rw [htables]
  rw [← husers]
  exact bookTraffic_user hpos htraffic

end Effect

end PeerUsageCheckpoints

end Db
end ZeroVpn
