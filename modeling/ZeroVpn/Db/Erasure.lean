import ZeroVpn.Db.Schema
import ZeroVpn.Library.ForeignKeys
import ZeroVpn.Library.Machine
import ZeroVpn.Library.Rows

/-!
# The erasure of a user

`hard_delete` of `repos/users.rs` over all the tables that can name a user: the
tables with a column for the id of a user or of a device, with an email, or with
a text or a document that the program fills.  A row holds the identities in it
and nothing else; a text is the list of identities that occur in it.  Tables
without a writer, and tables with counters and keys of servers only, are left
out.

A `Write` is the `INSERT` of one writer of the program.  The other events are
the updates of texts and emails, the deletions of single rows by their handlers
and by the retention, the purge of a user by the retention, and `hard_delete`.
`Database.history` is not part of the program: it keeps every row as it was
inserted, so it knows the devices that a user has had.

An id is never drawn twice.  Emails are in the form that `CITEXT` compares.
-/

namespace ZeroVpn
namespace Db
namespace Erasure

open Library

inductive Table where
  | users | devices | auditLogs | failedLogins | bandwidthSamples | bandwidthAggregates
  | userPreferences | peerEndpointHistory | sessionEvents | topologyPositions
  | connectionSessions | accessLogs | destinationIps | bandwidthCandles1m | bandwidthCandles1d
  | userSessions | towerSessions | invitations | vpnServices | vpnServiceDevices
  | peerUsageCheckpoints | servers | appSettings | hostAgentReconcile
  deriving DecidableEq

/-- The columns that hold an id. -/
inductive Column where
  | userId | deviceId | actorUserId | targetId | invitedBy | createdBy | serviceId
  deriving DecidableEq

/-- The foreign keys of the migrations.  `bandwidth_samples.device_id` and
`audit_logs.target_id` have none. -/
def foreignKey : Table → Column → Option (Table × OnDelete)
  | .devices, .userId => some (.users, .cascade)
  | .auditLogs, .actorUserId => some (.users, .setNull)
  | .bandwidthAggregates, .deviceId => some (.devices, .cascade)
  | .bandwidthAggregates, .userId => some (.users, .cascade)
  | .userPreferences, .userId => some (.users, .cascade)
  | .peerEndpointHistory, .deviceId => some (.devices, .cascade)
  | .sessionEvents, .userId => some (.users, .cascade)
  | .topologyPositions, .userId => some (.users, .cascade)
  | .connectionSessions, .deviceId => some (.devices, .cascade)
  | .connectionSessions, .userId => some (.users, .cascade)
  | .accessLogs, .userId => some (.users, .setNull)
  | .destinationIps, .deviceId => some (.devices, .setNull)
  | .destinationIps, .userId => some (.users, .setNull)
  | .bandwidthCandles1m, .deviceId => some (.devices, .cascade)
  | .bandwidthCandles1d, .deviceId => some (.devices, .cascade)
  | .userSessions, .userId => some (.users, .cascade)
  | .invitations, .userId => some (.users, .cascade)
  | .invitations, .invitedBy => some (.users, .setNull)
  | .vpnServices, .createdBy => some (.users, .setNull)
  | .vpnServiceDevices, .serviceId => some (.vpnServices, .cascade)
  | .vpnServiceDevices, .deviceId => some (.devices, .cascade)
  | .peerUsageCheckpoints, .deviceId => some (.devices, .cascade)
  | _, _ => none

def rank : Table → Nat
  | .users | .vpnServices => 0
  | .devices => 1
  | _ => 2

/-- The tables that a foreign key refers to. -/
theorem foreignKey_target {t t' : Table} {c : Column} {act : OnDelete}
    (h : foreignKey t c = some (t', act)) :
    t' = .users ∨ t' = .devices ∨ t' = .vpnServices := by
  unfold foreignKey at h
  split at h <;> simp_all

def schema : Schema Table Column where
  foreignKey := foreignKey
  rank := rank
  depth := 2
  rank_lt := by
    intro t c t' h
    unfold foreignKey at h
    split at h <;> simp_all [rank] <;> subst_vars <;> decide
  rank_le := by
    intro t
    cases t <;> decide

/-- What a text can say about a person. -/
inductive Mention where
  | id (id : Uuid)
  | email (email : String)
  deriving DecidableEq

/-- The columns of a row that hold no id: `users.email` and `failed_logins.email_attempted`,
and the texts. -/
structure Content where
  email : Option String
  text : List Mention
  deriving DecidableEq

abbrev Row := KeyedRow Table Column Uuid Content

def mentions (r : Row) : Mention → Bool
  | .id k => r.key == k || r.refs.any (fun ref => ref.2 == k) || r.content.text.contains (.id k)
  | .email e => r.content.email == some e || r.content.text.contains (.email e)

/-- The insertions of the program, with the identities that they write. -/
inductive Write where
  /-- `users::create`, and the first admin. -/
  | createUser (email : String)
  /-- `devices::create`; the text is the name. -/
  | createDevice (userId : Uuid) (name : List Mention)
  /-- `audit::record`. -/
  | recordAudit (actor target : Option Uuid) (metadata : List Mention)
  /-- `failed_logins::record`. -/
  | recordFailedLogin (email : Option String) (userAgent : List Mention)
  /-- The sample of `peer_usage_checkpoints::account`. -/
  | insertSample (deviceId : Uuid)
  /-- The roll-ups of `bandwidth.rs`. -/
  | aggregate (deviceId userId : Uuid)
  /-- `user_prefs::upsert`. -/
  | savePreferences (userId : Uuid)
  /-- `peer_endpoint_history::insert`. -/
  | recordEndpoint (deviceId : Uuid)
  /-- `session_events::record`. -/
  | recordSessionEvent (userId : Uuid) (metadata : List Mention)
  /-- `topology_positions::replace_all`; a node is a device. -/
  | savePosition (userId : Uuid) (nodeId : List Mention)
  /-- `connection_sessions::open`. -/
  | openConnection (deviceId userId : Uuid)
  /-- `access_logs::record`. -/
  | logAccess (userId : Option Uuid) (path : List Mention)
  /-- `destination_ips::insert`. -/
  | insertDestination (deviceId userId : Option Uuid)
  /-- `candles::insert_1m`. -/
  | insertCandle1m (deviceId : Uuid)
  /-- `candles::rollup_1d`. -/
  | insertCandle1d (deviceId : Uuid)
  /-- `user_sessions::create`. -/
  | recordSession (userId : Uuid) (userAgent : List Mention)
  /-- The session store; the data hold the id of the user who signed in. -/
  | saveSession (data : List Mention)
  /-- `issue` of `routes/invitations.rs`. -/
  | issueInvitation (userId : Uuid) (invitedBy : Option Uuid)
  /-- A rule of `routes/host_access.rs`. -/
  | createRule (createdBy : Option Uuid) (name : List Mention)
  /-- A device of such a rule. -/
  | grantDevice (serviceId deviceId : Uuid)
  /-- The first checkpoint of a device. -/
  | insertCheckpoint (deviceId : Uuid)
  /-- `servers::create`. -/
  | createServer (name : List Mention)
  /-- The row of `app_settings`. -/
  | initSettings (message : List Mention)
  /-- The row of `host_agent_reconcile`. -/
  | initReconcile (lastError : List Mention)

/-- A nullable column. -/
def nullable (c : Column) : Option Uuid → List (Column × Uuid)
  | some k => [(c, k)]
  | none => []

/-- A row without an email. -/
def plainRow (table : Table) (key : Uuid) (refs : List (Column × Uuid)) (text : List Mention) :
    Row where
  table := table
  key := key
  refs := refs
  content := { email := none, text := text }

def Write.row (key : Uuid) : Write → Row
  | createUser email => ⟨.users, key, [], ⟨some email, []⟩⟩
  | createDevice userId name => plainRow .devices key [(.userId, userId)] name
  | recordAudit actor target metadata =>
      plainRow .auditLogs key (nullable .actorUserId actor ++ nullable .targetId target) metadata
  | recordFailedLogin email userAgent => ⟨.failedLogins, key, [], ⟨email, userAgent⟩⟩
  | insertSample deviceId => plainRow .bandwidthSamples key [(.deviceId, deviceId)] []
  | aggregate deviceId userId =>
      plainRow .bandwidthAggregates key [(.deviceId, deviceId), (.userId, userId)] []
  | savePreferences userId => plainRow .userPreferences key [(.userId, userId)] []
  | recordEndpoint deviceId => plainRow .peerEndpointHistory key [(.deviceId, deviceId)] []
  | recordSessionEvent userId metadata =>
      plainRow .sessionEvents key [(.userId, userId)] metadata
  | savePosition userId nodeId => plainRow .topologyPositions key [(.userId, userId)] nodeId
  | openConnection deviceId userId =>
      plainRow .connectionSessions key [(.deviceId, deviceId), (.userId, userId)] []
  | logAccess userId path => plainRow .accessLogs key (nullable .userId userId) path
  | insertDestination deviceId userId =>
      plainRow .destinationIps key (nullable .deviceId deviceId ++ nullable .userId userId) []
  | insertCandle1m deviceId => plainRow .bandwidthCandles1m key [(.deviceId, deviceId)] []
  | insertCandle1d deviceId => plainRow .bandwidthCandles1d key [(.deviceId, deviceId)] []
  | recordSession userId userAgent => plainRow .userSessions key [(.userId, userId)] userAgent
  | saveSession data => plainRow .towerSessions key [] data
  | issueInvitation userId invitedBy =>
      plainRow .invitations key ((.userId, userId) :: nullable .invitedBy invitedBy) []
  | createRule createdBy name => plainRow .vpnServices key (nullable .createdBy createdBy) name
  | grantDevice serviceId deviceId =>
      plainRow .vpnServiceDevices key [(.serviceId, serviceId), (.deviceId, deviceId)] []
  | insertCheckpoint deviceId => plainRow .peerUsageCheckpoints key [(.deviceId, deviceId)] []
  | createServer name => plainRow .servers key [] name
  | initSettings message => plainRow .appSettings key [] message
  | initReconcile lastError => plainRow .hostAgentReconcile key [] lastError

structure Database where
  rows : List Row
  /-- Every row, as it was inserted. -/
  history : List Row

/-- The table that must hold the value of a column when a row is inserted: the foreign keys,
and the device of a sample, whose row `account` has locked. -/
def required : Table → Column → Option Table
  | .bandwidthSamples, .deviceId => some .devices
  | t, c => (foreignKey t c).map Prod.fst

/-- The columns of the new row are good. -/
def referencesHold (rows : List Row) (new : Row) : Bool :=
  new.refs.all fun ref => (required new.table ref.1).all fun t =>
    rows.any fun r => r.table == t && r.key == ref.2

/-- Another user has the email. -/
def emailTaken (rows : List Row) (key : Uuid) (email : Option String) : Bool :=
  rows.any fun r => r.table == .users && r.key != key && r.content.email == email

def accepts (db : Database) (new : Row) : Bool :=
  (!db.history.any fun h => h.key == new.key) && referencesHold db.rows new &&
    (new.table != .users || !emailTaken db.rows new.key new.content.email)

/-! ## `hard_delete` -/

def isUser (userId : Uuid) (r : Row) : Bool := r.table == .users && r.key == userId

/-- `SELECT id FROM devices WHERE user_id = $1`. -/
def devicesOf (userId : Uuid) (rows : List Row) : List Uuid :=
  (rows.filter fun r => r.table == .devices && r.refs.contains (.userId, userId)).map KeyedRow.key

/-- `bandwidth_samples WHERE device_id = ANY($1)`. -/
def samplesOf (deviceIds : List Uuid) (r : Row) : Bool :=
  r.table == .bandwidthSamples && r.refs.any fun ref =>
    ref.1 == .deviceId && deviceIds.contains ref.2

/-- `audit_logs WHERE actor_user_id = $1 OR target_id = $1`. -/
def auditsOf (userId : Uuid) (r : Row) : Bool :=
  r.table == .auditLogs &&
    (r.refs.contains (.actorUserId, userId) || r.refs.contains (.targetId, userId))

/-- `access_logs WHERE user_id = $1`, and the same for `destination_ips`. -/
def logsOf (table : Table) (userId : Uuid) (r : Row) : Bool :=
  r.table == table && r.refs.contains (.userId, userId)

/-- `failed_logins WHERE email_attempted = $1::CITEXT`. -/
def failedLoginsOf (email : String) (r : Row) : Bool :=
  r.table == .failedLogins && r.content.email == some email

/-- A transaction on its own copy of the rows. -/
abbrev RowTx := StateT (List Row) (Except DbError)

/-- The statement at `n` changes the rows, or fails. -/
def statement (fault : Nat → Bool) (n : Nat) (f : List Row → List Row) : RowTx Unit := do
  if fault n then throw .unavailable
  modify f

/-- The `DELETE` of the samples, for a user with devices. -/
def deleteSamples (fault : Nat → Bool) (deviceIds : List Uuid) : RowTx Unit :=
  if deviceIds.isEmpty then pure ()
  else statement fault 1 (deleteWhere schema (samplesOf deviceIds))

/-- The statements of `hard_delete`, with the commit. -/
def hardDeleteTx (fault : Nat → Bool) (userId : Uuid) (email : String) : RowTx Unit := do
  statement fault 0 id
  let rows ← get
  deleteSamples fault (devicesOf userId rows)
  statement fault 2 (deleteWhere schema (auditsOf userId))
  statement fault 3 (deleteWhere schema (logsOf .accessLogs userId))
  statement fault 4 (deleteWhere schema (logsOf .destinationIps userId))
  statement fault 5 (deleteWhere schema (failedLoginsOf email))
  statement fault 6 (deleteWhere schema (isUser userId))
  statement fault 7 id

/-- The rows that the first five `DELETE`s select. -/
def purged (deviceIds : List Uuid) (userId : Uuid) (email : String) (r : Row) : Bool :=
  samplesOf deviceIds r || auditsOf userId r || logsOf .accessLogs userId r ||
    logsOf .destinationIps userId r || failedLoginsOf email r

/-- The rows after `hard_delete`. -/
def eraseRows (userId : Uuid) (email : String) (rows : List Row) : List Row :=
  deleteWhere schema (isUser userId)
    (rows.filter fun r => !purged (devicesOf userId rows) userId email r)

/-- `hard_delete`. -/
def hardDelete (fault : Nat → Bool) (userId : Uuid) (email : String) (rows : List Row) :
    List Row × Except DbError Unit :=
  match (hardDeleteTx fault userId email).run rows with
  | .ok ((), rows') => (rows', .ok ())
  | .error e => (rows, .error e)

inductive Event where
  | write (key : Uuid) (w : Write)
  /-- An update of the texts of a row. -/
  | setText (key : Uuid) (text : List Mention)
  /-- `users::admin_set_email`, and the email that `users::soft_delete` puts in its place. -/
  | setEmail (userId : Uuid) (email : String)
  /-- A deletion in a table other than `users` and `devices`. -/
  | remove (key : Uuid)
  /-- The `DELETE` of a user by the retention. -/
  | purgeUser (userId : Uuid)
  | hardDelete (fault : Nat → Bool) (userId : Uuid) (email : String)

/-- A row of a table other than `users` and `devices`. -/
def isOther (key : Uuid) (r : Row) : Bool :=
  r.table != .users && r.table != .devices && r.key == key

def withText (text : List Mention) (r : Row) : Row :=
  { r with content := { r.content with text := text } }

def withEmail (email : String) (r : Row) : Row :=
  { r with content := { r.content with email := some email } }

def dbStep (db : Database) : Event → Database
  | .write key w =>
      if accepts db (w.row key) then
        { rows := db.rows ++ [w.row key], history := db.history ++ [w.row key] }
      else db
  | .setText key text =>
      { db with rows := updateWhere (fun r => r.key == key) (withText text) db.rows }
  | .setEmail userId email =>
      if emailTaken db.rows userId (some email) then db
      else { db with rows := updateWhere (isUser userId) (withEmail email) db.rows }
  | .remove key =>
      { db with rows := deleteWhere schema (isOther key) db.rows }
  | .purgeUser userId => { db with rows := deleteWhere schema (isUser userId) db.rows }
  | .hardDelete fault userId email =>
      { db with rows := (hardDelete fault userId email db.rows).1 }

def emptyDatabase : Database where
  rows := []
  history := []

/-- The devices that the user has had. -/
def devicesHad (db : Database) (userId : Uuid) : List Uuid := devicesOf userId db.history

/-- What must be forgotten of a user. -/
def identities (userId : Uuid) (deviceIds : List Uuid) (email : String) : List Mention :=
  .id userId :: .email email :: deviceIds.map .id

/-- No row mentions the user. -/
def Erased (rows : List Row) (userId : Uuid) (deviceIds : List Uuid) (email : String) : Prop :=
  ∀ r ∈ rows, ∀ x ∈ identities userId deviceIds email, mentions r x = false

/-- The row is the user's own. -/
def belongs (userId : Uuid) (deviceIds : List Uuid) (email : String) (r : Row) : Bool :=
  match r.table with
  | .users => r.key == userId
  | .auditLogs => r.refs.contains (.actorUserId, userId) || r.refs.contains (.targetId, userId)
  | .accessLogs | .destinationIps => r.refs.contains (.userId, userId)
  | .failedLogins => r.content.email == some email
  | .vpnServices | .towerSessions | .servers | .appSettings | .hostAgentReconcile => false
  | _ => r.refs.contains (.userId, userId) ||
      r.refs.any fun ref => ref.1 == .deviceId && deviceIds.contains ref.2

/-- The condition on the rows of others: no record of the audit is about a device of the user,
and no text mentions the user. -/
structure Erasable (rows : List Row) (userId : Uuid) (deviceIds : List Uuid) (email : String) :
    Prop where
  audits : ∀ r ∈ rows, r.table = .auditLogs → belongs userId deviceIds email r = false →
    ∀ d ∈ deviceIds, (.targetId, d) ∉ r.refs
  texts : ∀ r ∈ rows, belongs userId deviceIds email r = false →
    ∀ x ∈ identities userId deviceIds email, x ∉ r.content.text

/-! ## The statements -/

section Statements

variable {rows : List Row}

/-- A `DELETE` in a log. -/
theorem deleteWhere_log {p : Row → Bool} (hp : ∀ r, p r = true →
      r.table ≠ .users ∧ r.table ≠ .devices ∧ r.table ≠ .vpnServices) (rows : List Row) :
    deleteWhere schema p rows = rows.filter fun r => !p r := by
  refine deleteWhere_unreferenced ?_
  intro r _ hr t c act hkey
  obtain ⟨husers, hdevices, hservices⟩ := hp r hr
  rcases foreignKey_target hkey with h | h | h
  · exact husers h
  · exact hdevices h
  · exact hservices h

theorem log_table {p : Row → Bool} {t : Table} (ht : t ≠ .users ∧ t ≠ .devices ∧ t ≠ .vpnServices)
    (hp : ∀ r, p r = true → r.table = t) (r : Row) (hr : p r = true) :
    r.table ≠ .users ∧ r.table ≠ .devices ∧ r.table ≠ .vpnServices := by
  rw [hp r hr]
  exact ht

theorem samplesOf_table {deviceIds : List Uuid} (r : Row) (h : samplesOf deviceIds r = true) :
    r.table = .bandwidthSamples :=
  eq_of_beq (Bool.and_eq_true_iff.mp h).1

theorem auditsOf_table {userId : Uuid} (r : Row) (h : auditsOf userId r = true) :
    r.table = .auditLogs :=
  eq_of_beq (Bool.and_eq_true_iff.mp h).1

theorem logsOf_table {table : Table} {userId : Uuid} (r : Row) (h : logsOf table userId r = true) :
    r.table = table :=
  eq_of_beq (Bool.and_eq_true_iff.mp h).1

theorem failedLoginsOf_table {email : String} (r : Row) (h : failedLoginsOf email r = true) :
    r.table = .failedLogins :=
  eq_of_beq (Bool.and_eq_true_iff.mp h).1

theorem purged_table {deviceIds : List Uuid} {userId : Uuid} {email : String} (r : Row)
    (h : purged deviceIds userId email r = true) :
    r.table ≠ .users ∧ r.table ≠ .devices ∧ r.table ≠ .vpnServices := by
  simp only [purged, Bool.or_eq_true] at h
  rcases h with (((h | h) | h) | h) | h
  · exact log_table (by decide) samplesOf_table r h
  · exact log_table (by decide) auditsOf_table r h
  · exact log_table (by decide) logsOf_table r h
  · exact log_table (by decide) logsOf_table r h
  · exact log_table (by decide) failedLoginsOf_table r h

theorem samplesOf_nil : samplesOf [] = fun _ => false := by
  funext r
  simp [samplesOf]

/-- The `DELETE`s one after the other. -/
theorem eraseRows_eq (userId : Uuid) (email : String) (rows : List Row) :
    deleteWhere schema (isUser userId) (deleteWhere schema (failedLoginsOf email)
      (deleteWhere schema (logsOf .destinationIps userId)
        (deleteWhere schema (logsOf .accessLogs userId)
          (deleteWhere schema (auditsOf userId)
            (deleteWhere schema (samplesOf (devicesOf userId rows)) rows))))) =
      eraseRows userId email rows := by
  rw [deleteWhere_log (log_table (by decide) samplesOf_table),
    deleteWhere_log (log_table (by decide) auditsOf_table),
    deleteWhere_log (log_table (by decide) logsOf_table),
    deleteWhere_log (log_table (by decide) logsOf_table),
    deleteWhere_log (log_table (by decide) failedLoginsOf_table)]
  simp only [List.filter_filter]
  unfold eraseRows
  congr 1
  refine List.filter_congr fun r _ => ?_
  simp only [purged, Bool.not_or]
  ac_rfl

/-- The transaction fails, or it ends with the rows `after`. -/
def Ends (x : RowTx Unit) (rows after : List Row) : Prop :=
  x.run rows = .error .unavailable ∨ x.run rows = .ok ((), after)

theorem ends_statement (fault : Nat → Bool) (n : Nat) (f : List Row → List Row) (rows : List Row) :
    Ends (statement fault n f) rows (f rows) := by
  unfold Ends statement
  cases fault n with
  | true =>
      exact Or.inl rfl
  | false =>
      exact Or.inr rfl

theorem Ends.bind {x : RowTx Unit} {k : Unit → RowTx Unit} {rows after after' : List Row}
    (hx : Ends x rows after) (hk : Ends (k ()) after after') : Ends (x >>= k) rows after' := by
  unfold Ends at *
  rw [StateT.run_bind]
  rcases hx with hx | hx
  · rw [hx]
    exact Or.inl rfl
  · rw [hx]
    exact hk

theorem ends_get {k : List Row → RowTx Unit} {rows after : List Row}
    (hk : Ends (k rows) rows after) : Ends (get >>= k) rows after := hk

theorem ends_deleteSamples (fault : Nat → Bool) (deviceIds : List Uuid) (rows : List Row) :
    Ends (deleteSamples fault deviceIds) rows
      (deleteWhere schema (samplesOf deviceIds) rows) := by
  unfold deleteSamples
  split
  · rename_i hempty
    rw [List.isEmpty_iff.mp hempty, samplesOf_nil, deleteWhere_log (by simp)]
    refine Or.inr ?_
    simp only [Bool.not_false, List.filter_true]
    rfl
  · exact ends_statement ..

theorem ends_hardDeleteTx (fault : Nat → Bool) (userId : Uuid) (email : String)
    (rows : List Row) :
    Ends (hardDeleteTx fault userId email) rows (eraseRows userId email rows) := by
  rw [← eraseRows_eq]
  refine (ends_statement fault 0 id rows).bind (ends_get ?_)
  refine (ends_deleteSamples fault (devicesOf userId rows) rows).bind ?_
  exact (ends_statement ..).bind <| (ends_statement ..).bind <| (ends_statement ..).bind <|
    (ends_statement ..).bind <| (ends_statement ..).bind (ends_statement ..)

/-- The transaction goes through, or it leaves the rows as they were. -/
theorem hardDelete_cases (fault : Nat → Bool) (userId : Uuid) (email : String) (rows : List Row) :
    hardDelete fault userId email rows = (rows, .error .unavailable) ∨
      hardDelete fault userId email rows = (eraseRows userId email rows, .ok ()) := by
  unfold hardDelete
  rcases ends_hardDeleteTx fault userId email rows with h | h
  · rw [h]
    exact Or.inl rfl
  · rw [h]
    exact Or.inr rfl

end Statements

end Erasure
end Db
end ZeroVpn
