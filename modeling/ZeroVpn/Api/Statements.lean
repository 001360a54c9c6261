import ZeroVpn.Api.Accounts
import ZeroVpn.Library.Notes

/-!
# What a statement leaves in the tables

`usersAfter` and `devicesAfter` are the rows of the two tables after an accepted
statement, as functions of the rows before it.  `run_users` and `run_devices`
say so once for all statements; later modules reason about these functions and
never about a transaction.
-/

namespace ZeroVpn

open Library

namespace Api

open Db (Uuid Device User Server DbError)

namespace DbCall

/-- The users after an accepted statement. -/
def usersAfter : DbCall → List User → List User
  | createUser id email role status, us =>
      us ++ [{ id := id, email := email, role := role, status := status, deletedAt := none
               deviceLimit := 5, monthlyByteCap := none, currentMonthBytes := 0
               quotaResetsAt := none }]
  | adminSetStatus id status, us =>
      updateWhere (Db.Users.present id) (fun u => { u with status := status }) us
  | adminSetRole id role, us =>
      updateWhere (Db.Users.present id) (fun u => { u with role := role }) us
  | promoteBootstrapAdmin id, us =>
      updateWhere (fun u => u.id == id) (fun u => { u with role := .admin, status := .active }) us
  | softDelete id now, us =>
      updateWhere (fun u => u.id == id)
        (fun u => { u with
          deletedAt := some (Db.toTimestamp now)
          status := .deleted
          email := .deletedAccount u.id }) us
  | hardDelete id, us => us.filter fun u => u.id != id
  | resetDueUsers now next, us =>
      updateWhere (fun u => Db.Quota.due now u.quotaResetsAt && u.deletedAt.isNone)
        (fun u => { u with
          currentMonthBytes := 0
          quotaResetsAt := some (Db.toTimestamp next) }) us
  | _, us => us

/-- The devices after an accepted statement. -/
def devicesAfter : DbCall → List Device → List Device
  | createDevice id d, ds => ds ++ [d.row id]
  | setPrivateKeyEncrypted userId deviceId encrypted, ds =>
      updateWhere (Db.Devices.owned userId deviceId)
        (fun d => { d with privateKeyEncrypted := encrypted }) ds
  | setStatus userId deviceId status, ds =>
      updateWhere (Db.Devices.owned userId deviceId) (fun d => { d with status := status }) ds
  | updatePublicKey userId deviceId publicKey, ds =>
      updateWhere (Db.Devices.owned userId deviceId)
        (fun d => { d with publicKey := publicKey }) ds
  | setQuota deviceId cap, ds =>
      updateWhere (fun d => d.id == deviceId) (fun d => { d with monthlyByteCap := cap }) ds
  | softDelete userId _, ds =>
      updateWhere (fun d => d.userId == userId) (fun d => { d with status := .revoked }) ds
  | hardDelete userId, ds => ds.filter fun d => d.userId != userId
  | resetDueDevices now next, ds =>
      updateWhere (fun d => Db.Quota.due now d.quotaResetsAt)
        (fun d => { d with
          currentMonthBytes := 0
          quotaResetsAt := some (Db.toTimestamp next) }) ds
  | markAutoPaused id, ds =>
      updateWhere (fun d => d.id == id && d.status == .active)
        (fun d => { d with status := .paused, autoPaused := true }) ds
  | markResumed id, ds =>
      updateWhere (fun d => d.id == id && d.status == .paused && d.autoPaused)
        (fun d => { d with status := .active, autoPaused := false }) ds
  | _, ds => ds

/-- The row of a device after an accepted statement that does not erase it. -/
def deviceAfter : DbCall → Device → Device
  | setPrivateKeyEncrypted userId deviceId encrypted, d =>
      if Db.Devices.owned userId deviceId d then { d with privateKeyEncrypted := encrypted }
      else d
  | setStatus userId deviceId status, d =>
      if Db.Devices.owned userId deviceId d then { d with status := status } else d
  | updatePublicKey userId deviceId publicKey, d =>
      if Db.Devices.owned userId deviceId d then { d with publicKey := publicKey } else d
  | setQuota deviceId cap, d =>
      if d.id == deviceId then { d with monthlyByteCap := cap } else d
  | softDelete userId _, d =>
      if d.userId == userId then { d with status := .revoked } else d
  | resetDueDevices now next, d =>
      if Db.Quota.due now d.quotaResetsAt then
        { d with currentMonthBytes := 0, quotaResetsAt := some (Db.toTimestamp next) }
      else d
  | markAutoPaused id, d =>
      if d.id == id && d.status == .active then { d with status := .paused, autoPaused := true }
      else d
  | markResumed id, d =>
      if d.id == id && d.status == .paused && d.autoPaused then
        { d with status := .active, autoPaused := false }
      else d
  | _, d => d

/-- A statement keeps the rows of all devices but those it erases. -/
theorem mem_devicesAfter {q : DbCall} (hq : ∀ userId, q ≠ .hardDelete userId)
    {ds : List Device} {d : Device} (hd : d ∈ ds) : q.deviceAfter d ∈ q.devicesAfter ds := by
  cases q with
  | hardDelete userId =>
      exact absurd rfl (hq userId)
  | createDevice id new =>
      exact List.mem_append_left _ hd
  | setPrivateKeyEncrypted _ _ _ | setStatus _ _ _ | updatePublicKey _ _ _ | setQuota _ _
  | softDelete _ _ | resetDueDevices _ _ | markAutoPaused _ | markResumed _ =>
      exact List.mem_map_of_mem hd
  | _ =>
      exact hd

/-- Where a row comes from. -/
theorem of_mem_devicesAfter {q : DbCall} {ds : List Device} {d' : Device}
    (hd' : d' ∈ q.devicesAfter ds) :
    (∃ d ∈ ds, d' = q.deviceAfter d) ∨ ∃ id new, q = .createDevice id new ∧ d' = new.row id := by
  cases q with
  | createDevice id new =>
      rcases List.mem_append.mp hd' with hold | hnew
      · exact Or.inl ⟨d', hold, rfl⟩
      · exact Or.inr ⟨id, new, rfl, List.mem_singleton.mp hnew⟩
  | hardDelete userId =>
      exact Or.inl ⟨d', (List.mem_filter.mp hd').1, rfl⟩
  | setPrivateKeyEncrypted _ _ _ | setStatus _ _ _ | updatePublicKey _ _ _ | setQuota _ _
  | softDelete _ _ | resetDueDevices _ _ | markAutoPaused _ | markResumed _ =>
      obtain ⟨d, hd, rfl⟩ := List.mem_map.mp hd'
      exact Or.inl ⟨d, hd, rfl⟩
  | _ =>
      exact Or.inl ⟨d', hd', rfl⟩

@[simp] theorem deviceAfter_id (q : DbCall) (d : Device) : (q.deviceAfter d).id = d.id := by
  cases q with
  | setPrivateKeyEncrypted _ _ _ | setStatus _ _ _ | updatePublicKey _ _ _ | setQuota _ _
  | softDelete _ _ | resetDueDevices _ _ | markAutoPaused _ | markResumed _ =>
      simp only [deviceAfter]
      split
      · rfl
      · rfl
  | _ =>
      rfl

variable {q : DbCall} {r : q.Reply} {db db' : Db}

theorem run_rows (h : q.run db = .ok (r, db')) :
    db'.users = q.usersAfter db.users ∧ db'.devices = q.devicesAfter db.devices := by
  cases q with
  | findUser _ | findUserByEmail _ | deviceLimit _ | monthQuota _ | countActiveAdmins
  | listForUser _ | findForUser _ _ | getById _ | allocatedIpsForServer _ | activePeers
  | listActiveServers | findServer _ | defaultKeyState | resumeCandidates | pauseCandidates =>
      cases h
      exact ⟨rfl, rfl⟩
  | createUser _ _ _ _ | createDevice _ _ | createServer _ _ _ | hardDelete _ =>
      rw [(Db.write_return_eq_ok h).1]
      exact ⟨rfl, rfl⟩
  | adminSetStatus _ _ | adminSetRole _ _ | promoteBootstrapAdmin _ | resetDueUsers _ _ =>
      rw [(Db.updateUsers_eq_ok h).1]
      exact ⟨rfl, rfl⟩
  | setPrivateKeyEncrypted _ _ _ | setStatus _ _ _ | updatePublicKey _ _ _ | setQuota _ _
  | resetDueDevices _ _ | markAutoPaused _ | markResumed _ =>
      rw [(Db.updateDevices_eq_ok h).1]
      exact ⟨rfl, rfl⟩
  | setServerPrivateKey _ _ | setKeypair _ _ _ =>
      rw [Db.updateServers_eq_ok h]
      exact ⟨rfl, rfl⟩
  | softDelete _ _ =>
      exact Db.Users.softDelete_eq_ok h

theorem run_users (h : q.run db = .ok (r, db')) : db'.users = q.usersAfter db.users :=
  (run_rows h).1

theorem run_devices (h : q.run db = .ok (r, db')) : db'.devices = q.devicesAfter db.devices :=
  (run_rows h).2

/-- The database accepts the statement. -/
def accepted (q : DbCall) (db : Db) : Bool :=
  match q.run db with
  | .ok _ => true
  | .error _ => false

theorem accepted_of_ok (h : q.run db = .ok (r, db')) : q.accepted db = true := by
  simp only [accepted, h]

theorem not_accepted_of_error {e : DbError} (h : q.run db = .error e) :
    q.accepted db = false := by
  simp only [accepted, h]

end DbCall

/-- The statement that a call runs, if the database accepts it. -/
def ApiCmd.acceptedSql (c : ApiCmd) (ok : Bool) (db : Db) : Option DbCall :=
  match c, ok with
  | .sql q, true => if q.accepted db then some q else none
  | _, _ => none

theorem ApiCmd.acceptedSql_eq_some {c : ApiCmd} {ok : Bool} {db : Db} {q : DbCall}
    (h : c.acceptedSql ok db = some q) : c = .sql q := by
  unfold ApiCmd.acceptedSql at h
  split at h
  · rename_i q'
    cases hacc : q'.accepted db with
    | false =>
        simp [hacc] at h
    | true =>
        simp only [hacc, if_true, Option.some.injEq] at h
        rw [h]
  · cases h

/-- The rows of the two tables after a call. -/
def RowsAfter (q : Option DbCall) (db db' : Db) : Prop :=
  match q with
  | some q => db'.users = q.usersAfter db.users ∧ db'.devices = q.devicesAfter db.devices
  | none => db' = db

/-- A call changes the database by the statement it runs only. -/
theorem sem_rows (c : ApiCmd) (ok : Bool) (s : Sys) :
    RowsAfter (c.acceptedSql ok s.db) s.db (c.sem ok s).1.db := by
  cases c with
  | sql q =>
      cases ok with
      | false =>
          rfl
      | true =>
          cases hrun : q.run s.db with
          | error e =>
              simp only [ApiCmd.acceptedSql, DbCall.not_accepted_of_error hrun, ApiCmd.sem, hrun]
              rfl
          | ok rd =>
              simp only [ApiCmd.acceptedSql, DbCall.accepted_of_ok hrun, ApiCmd.sem, hrun]
              exact DbCall.run_rows hrun
  | getAllocator _ | wgShow | render | encrypt _ | audit _ _ | newAllocator _ _ _
  | addPeer _ _ _ _ | removePeer _ | bringUpWg =>
      cases ok with
      | false =>
          rfl
      | true =>
          rfl
  | allocate serverId =>
      simp only [ApiCmd.sem]
      repeat' split
      all_goals rfl
  | tryReserve serverId ip =>
      simp only [ApiCmd.sem]
      repeat' split
      all_goals rfl
  | release releaser serverId ip =>
      simp only [ApiCmd.sem]
      split
      · rfl
      · rfl

theorem user_id_of_findById {db : Db} {id : Uuid} {u : User} (h : Db.Users.findById id db = some u) :
    u.id = id := by
  have hp := List.find?_some h
  simp only [Db.Users.present, Bool.and_eq_true, beq_iff_eq] at hp
  exact hp.1

section Reads

variable {T G α M : Type} {S : System Sys T G ApiCmd ApiCmd.Reply α}
variable {I : Sys → (Nat → M) → Prop} {Obl : T → ApiCmd → M → Prop}
variable {Cond : Nat → T → ApiCmd → Bool → Sys → (Nat → M) → Prop}

/-- A statement that only reads; the answer decides the note. -/
theorem follows_read {i : Nat} {t : T} {m : M} (hsem : S.sem = fun _ c ok s => c.sem ok s)
    {q : DbCall} (note : q.Reply → M) (hobl : Obl t (.sql q) m)
    (hread : ∀ s μ, I s μ → μ i = m →
      ∃ r, q.run s.db = .ok (r, s.db) ∧ I s (Function.update μ i (note r)))
    (hflight : ∀ s : Sys, s.inFlightAfter q = s.inFlight) :
    Follows S I Obl Cond i t (fun r m' => match r with
      | .ok a => m' = note a
      | .error _ => m' = m) (sql q).run m := by
  refine ⟨hobl, ?_⟩
  intro s μ ok hI hi _
  cases ok with
  | false =>
      refine ⟨m, ?_, ?_⟩
      · rw [hsem, ← hi, Function.update_eq_self]
        exact hI
      · rw [hsem]
        rfl
  | true =>
      obtain ⟨r, hrun, hnoted⟩ := hread s μ hI hi
      refine ⟨note r, ?_, ?_⟩
      · simp only [hsem, ApiCmd.sem, hrun, hflight]
        exact hnoted
      · simp only [hsem, ApiCmd.sem, hrun]
        rfl

end Reads

section Requests

variable {T : Type}

/-- A pool of requests. -/
abbrev RequestPool (T : Type) := Pool Sys T ApiCmd ApiCmd.Reply (Except ApiError Unit)

/-- Any number of requests over the shared state, each one call at a time; a
request may die between two calls. -/
def requestSystem (handler : T → Handler Unit) :
    System Sys T Unit ApiCmd ApiCmd.Reply (Except ApiError Unit) where
  body t := (handler t).run
  sem _ c ok s := c.sem ok s
  crash _ s := s
  restart _ s := s

/-- No request runs. -/
def requestIdle (s : Sys) : RequestPool T where
  shared := s
  threads := []

/-- The statement that an event runs, if the database accepts it. -/
def acceptedCall (p : RequestPool T) : PoolEvent T Unit → Option DbCall
  | .step i ok =>
      match nextCall p i with
      | some (_, c) => c.acceptedSql ok p.shared.db
      | none => none
  | _ => none

/-- An event changes the database by the statement it runs only. -/
theorem request_rows (handler : T → Handler Unit) (p : RequestPool T) (e : PoolEvent T Unit) :
    RowsAfter (acceptedCall p e) p.shared.db
      (poolStep (requestSystem handler) p e).shared.db := by
  cases e with
  | spawn t =>
      rfl
  | restart g =>
      rfl
  | crash i =>
      simp only [poolStep]
      split
      · rfl
      · rfl
  | step i ok =>
      simp only [poolStep]
      split
      · rename_i t c k hi
        have hnext : nextCall p i = some (t, c) := by
          simp only [nextCall, hi]
        simp only [acceptedCall, hnext]
        exact sem_rows c ok p.shared
      · rename_i hi
        have hnext : nextCall p i = none := by
          unfold nextCall
          split
          · rename_i t c k hk
            exact absurd hk (hi t c k)
          · rfl
        simp only [acceptedCall, hnext]
        rfl

/-- Every request of the pool only issues calls of its class. -/
abbrev RequestInv (handler : T → Handler Unit) (P : T → ApiCmd → Prop) (p : RequestPool T) :
    Prop :=
  PoolInv (requestSystem handler) (fun _ (_ : Nat → Unit) => True) (fun t c _ => P t c)
    (fun _ _ _ => True) (fun _ _ _ _ => True) () p

theorem requestInv_idle (handler : T → Handler Unit) (P : T → ApiCmd → Prop) (s : Sys) :
    RequestInv handler P (requestIdle s) := poolInv_init trivial

theorem requestInv_step {handler : T → Handler Unit} {P : T → ApiCmd → Prop}
    (hissues : ∀ t, Attempt.Issues (P t) (handler t)) (p : RequestPool T) (e : PoolEvent T Unit)
    (h : RequestInv handler P p) :
    RequestInv handler P (poolStep (requestSystem handler) p e) := by
  have hmeets : EventMeets (fun _ _ _ => True) (fun _ => True) (fun _ _ => True) p e := by
    cases e with
    | spawn t =>
        trivial
    | step i ok =>
        intro _ _ _
        trivial
    | crash i =>
        trivial
    | restart g =>
        trivial
  refine poolInv_step ?_ (fun _ _ _ _ => trivial) (fun _ _ _ _ _ => trivial) p e h hmeets
  intro t _ i
  refine safeThen_of_calls (P := P t) (fun _ _ _ hc _ => hc) (fun _ _ _ _ _ _ _ => trivial)
    (hissues t) fun _ => trivial

/-- The request whose call an event runs. -/
def madeBy (p : RequestPool T) : PoolEvent T Unit → Option T
  | .step i _ => (nextCall p i).map Prod.fst
  | _ => none

/-- The statement of an event belongs to the class of its request. -/
theorem acceptedCall_of_inv {handler : T → Handler Unit} {P : T → ApiCmd → Prop}
    {p : RequestPool T} (h : RequestInv handler P p) {e : PoolEvent T Unit} {q : DbCall}
    (hq : acceptedCall p e = some q) : ∃ t, madeBy p e = some t ∧ P t (.sql q) := by
  cases e with
  | spawn t =>
      cases hq
  | crash i =>
      cases hq
  | restart g =>
      cases hq
  | step i ok =>
      simp only [acceptedCall] at hq
      cases hnext : nextCall p i with
      | none =>
          rw [hnext] at hq
          cases hq
      | some tc =>
          obtain ⟨t, c⟩ := tc
          rw [hnext] at hq
          have hc : P t c := obligation_of_poolInv h hnext
          rw [ApiCmd.acceptedSql_eq_some hq] at hc
          refine ⟨t, ?_, hc⟩
          simp only [madeBy, hnext, Option.map_some]

end Requests

end Api
end ZeroVpn
