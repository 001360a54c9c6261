import ZeroVpn.Api.AddressRequests
import ZeroVpn.Api.Statements
import ZeroVpn.Library.Notes

/-!
# The device limit of a user

`create` and `connect` read the limit, count the devices of the user and store
the new row with three statements, and the address and the keys are made in
between.  A request whose count is outdated stores its row nevertheless.

`device_limit_kept` bounds the devices of a user in every interleaving in which
no request outdates the count of another one: whenever a row is stored while
another request of the user stands between its count and its insert, there is
room for both.
-/

namespace ZeroVpn

open Library
open Library.Attempt (Issues issues_bind issues_pure issues_lift issues_throw)

namespace Api

open Db (Uuid Device User)

/-- The requests that store or revoke devices. -/
inductive LimitOp where
  | create (userId : Uuid) (body : Devices.CreateBody) (draw : Devices.Draw)
  | connect (userId : Uuid) (body : Devices.ConnectBody) (wasOffline : Bool)
      (draw : Devices.Draw)
  | delete (userId deviceId : Uuid)
  | revokeDevice (actorId deviceId : Uuid)

namespace LimitOp

def handler : LimitOp → Handler Unit
  | create userId body draw => Devices.create userId body draw
  | connect userId body wasOffline draw => Devices.connect userId body wasOffline draw
  | delete userId deviceId => Devices.delete userId deviceId
  | revokeDevice actorId deviceId => Admin.revokeDevice actorId deviceId

/-- The request may store a device of the user. -/
def provisions (u : Uuid) : LimitOp → Bool
  | create userId .. => userId == u
  | connect userId .. => userId == u
  | _ => false

end LimitOp

/-- The number of non-revoked devices of a user. -/
def liveCount (u : Uuid) (db : Db) : Nat := (Db.Devices.listForUser u db).length

/-- The limit that `create` and `connect` compare with. -/
def effectiveLimit (u : Uuid) (db : Db) : Nat := Devices.asUsize (Db.Users.deviceLimit u db)

/-- The calls of `create` and `connect` between the count and the answer to the insert. -/
def ApiCmd.afterCount : ApiCmd → Bool
  | .sql .listActiveServers | .sql (.createDevice ..) => true
  | .getAllocator _ | .allocate _ | .tryReserve .. | .encrypt _ => true
  | _ => false

/-- Request `j` has counted the devices of the user and has not stored its own. -/
def Provisioning (u : Uuid) (p : RequestPool LimitOp) (j : Nat) : Bool :=
  match nextCall p j with
  | some (op, c) => op.provisions u && c.afterCount
  | none => false

/-- The event stores a device of the user. -/
def storesDevice (u : Uuid) (p : RequestPool LimitOp) (e : PoolEvent LimitOp Unit) : Bool :=
  match acceptedCall p e with
  | some (.createDevice _ new) => new.userId == u
  | _ => false

/-- The condition on one event: a device that is stored while another request stands
between its count and its insert leaves room for one more. -/
def LeavesRoom (u : Uuid) (p : RequestPool LimitOp) (e : PoolEvent LimitOp Unit) : Prop :=
  match e with
  | .step i _ =>
      storesDevice u p e = true →
        (∃ j < p.threads.length, j ≠ i ∧ Provisioning u p j = true) →
          liveCount u p.shared.db + 1 < effectiveLimit u p.shared.db
  | _ => True

instance (u : Uuid) (p : RequestPool LimitOp) (e : PoolEvent LimitOp Unit) :
    Decidable (LeavesRoom u p e) :=
  match e with
  | .step _ _ => inferInstanceAs (Decidable (_ → (∃ j < p.threads.length, _) → _))
  | .spawn _ | .crash _ | .restart _ => .isTrue trivial

section Counts

variable {u : Uuid} {db db' : Db}

theorem effectiveLimit_congr (h : db'.users = db.users) :
    effectiveLimit u db' = effectiveLimit u db := by
  simp only [effectiveLimit, Db.Users.deviceLimit, Db.Users.findById, h]

/-- Storing a device of the user adds one to the count. -/
theorem liveCount_insert {id : Uuid} {new : Db.Devices.NewDevice}
    (h : db'.devices = db.devices ++ [new.row id]) :
    liveCount u db' = liveCount u db + if new.userId = u then 1 else 0 := by
  simp only [liveCount, Db.Devices.listForUser, h, List.filter_append, List.length_append]
  congr 1
  by_cases huser : new.userId = u
  · simp [Db.Devices.NewDevice.row, huser]
  · simp [Db.Devices.NewDevice.row, huser]

/-- A change of rows that neither moves nor revives a device. -/
theorem liveCount_map_le {f : Device → Device} (h : db'.devices = db.devices.map f)
    (huser : ∀ d, (f d).userId = d.userId) (hlive : ∀ d, (f d).status ≠ .revoked →
      d.status ≠ .revoked) : liveCount u db' ≤ liveCount u db := by
  simp only [liveCount, Db.Devices.listForUser, h, ← List.countP_eq_length_filter, List.countP_map]
  refine List.countP_mono_left fun d _ hd => ?_
  simp only [Function.comp, Bool.and_eq_true, beq_iff_eq, bne_iff_ne, huser] at hd ⊢
  exact ⟨hd.1, hlive d hd.2⟩

/-- The calls that store no device and change no user. -/
def KeepsCount : ApiCmd → Prop
  | .sql (.setStatus _ _ status) => status = .revoked
  | .sql q => Plain (.sql q)
  | _ => True

theorem keepsCount_of_plain {c : ApiCmd} (h : Plain c) : KeepsCount c := by
  cases c with
  | sql q =>
      cases q <;> first | exact h | exact h.elim
  | _ =>
      trivial

theorem keepsCount_rows {q : DbCall} (hq : KeepsCount (.sql q)) (husers : db'.users = q.usersAfter db.users)
    (hdevices : db'.devices = q.devicesAfter db.devices) :
    db'.users = db.users ∧ liveCount u db' ≤ liveCount u db := by
  cases q with
  | setStatus userId deviceId status =>
      cases hq
      refine ⟨husers, liveCount_map_le hdevices ?_ ?_⟩
      · intro d
        split <;> rfl
      · intro d
        split
        · intro hrevoked
          exact absurd rfl hrevoked
        · exact id
  | setQuota deviceId cap =>
      refine ⟨husers, liveCount_map_le hdevices ?_ ?_⟩
      · intro d
        split <;> rfl
      · intro d
        split <;> exact id
  | findUser _ | findUserByEmail _ | deviceLimit _ | monthQuota _ | countActiveAdmins
  | listForUser _ | findForUser _ _ | getById _ | allocatedIpsForServer _ | activePeers
  | listActiveServers | findServer _ | defaultKeyState =>
      refine ⟨husers, Nat.le_of_eq ?_⟩
      simp only [liveCount, Db.Devices.listForUser, hdevices, DbCall.devicesAfter]
  | _ =>
      exact hq.elim

theorem keepsCount_sem {c : ApiCmd} (hc : KeepsCount c) (ok : Bool) (s : Sys) :
    (c.sem ok s).1.db.users = s.db.users ∧ liveCount u (c.sem ok s).1.db ≤ liveCount u s.db := by
  have hrows := sem_rows c ok s
  cases hcall : c.acceptedSql ok s.db with
  | none =>
      rw [hcall] at hrows
      have hsame : (c.sem ok s).1.db = s.db := hrows
      rw [hsame]
      exact ⟨rfl, Nat.le_refl _⟩
  | some q =>
      rw [hcall] at hrows
      rw [ApiCmd.acceptedSql_eq_some hcall] at hc
      exact keepsCount_rows hc hrows.1 hrows.2

end Counts

section Requests

variable {u : Uuid} {db₀ : Db} {s : Sys} {μ : Nat → Bool}

/-- The note of a request says that it has counted the devices of the user and that there
was room, and still is. -/
structure WithinLimit (u : Uuid) (db₀ : Db) (s : Sys) (μ : Nat → Bool) : Prop where
  users : s.db.users = db₀.users
  bound : liveCount u s.db ≤ max (effectiveLimit u db₀) (liveCount u db₀)
  room : ∀ j, μ j = true → liveCount u s.db < effectiveLimit u db₀

/-- A request that has counted is on its way to the insert. -/
def Counted (u : Uuid) (op : LimitOp) (c : ApiCmd) (m : Bool) : Prop :=
  m = true → op.provisions u = true ∧ c.afterCount = true

/-- The condition of a call, in terms of the notes. -/
def CallLeavesRoom (u : Uuid) (db₀ : Db) (i : Nat) (_ : LimitOp) (c : ApiCmd) (ok : Bool)
    (s : Sys) (μ : Nat → Bool) : Prop :=
  ∀ id new, c.acceptedSql ok s.db = some (.createDevice id new) → new.userId = u →
    ∀ j, j ≠ i → μ j = true → liveCount u s.db + 1 < effectiveLimit u db₀

/-- A request with note `m` may run `p`, and ends with `Q`. -/
abbrev Counts (u : Uuid) (db₀ : Db) (i : Nat) (op : LimitOp) {α : Type}
    (Q : Except ApiError α → Bool → Prop) (p : Handler α) (m : Bool) : Prop :=
  Follows (requestSystem LimitOp.handler) (WithinLimit u db₀) (Counted u) (CallLeavesRoom u db₀)
    i op Q p.run m

/-- A request may forget its count. -/
theorem WithinLimit.drop (h : WithinLimit u db₀ s μ) {s' : Sys} {μ' : Nat → Bool}
    (hdb : s'.db = s.db) (hμ : ∀ j, μ' j = true → μ j = true) : WithinLimit u db₀ s' μ' := by
  refine ⟨?_, ?_, ?_⟩
  · rw [hdb]
    exact h.users
  · rw [hdb]
    exact h.bound
  · rw [hdb]
    exact fun j hj => h.room j (hμ j hj)

theorem WithinLimit.keepsCount (h : WithinLimit u db₀ s μ) {c : ApiCmd} (hc : KeepsCount c)
    (ok : Bool) : WithinLimit u db₀ (c.sem ok s).1 μ := by
  obtain ⟨husers, hcount⟩ := keepsCount_sem (u := u) hc ok s
  refine ⟨husers.trans h.users, hcount.trans h.bound, ?_⟩
  intro j hj
  exact Nat.lt_of_le_of_lt hcount (h.room j hj)

variable {i : Nat} {op : LimitOp} {α β : Type} {m : Bool}

/-- Calls that keep the count leave the note as it is. -/
theorem quiet_counts {Q : Except ApiError α → Bool → Prop} {p : Handler α}
    (hp : Issues (fun c => KeepsCount c ∧ Counted u op c m) p) (hQ : ∀ r, Q r m) :
    Counts u db₀ i op Q p m :=
  follows_of_calls (fun _ hc => hc.2) (fun _ _ _ ok hc hs _ => hs.keepsCount hc.1 ok) hp hQ

/-- Plain calls of a request that has not counted. -/
theorem plain_counts {Q : Except ApiError α → Bool → Prop} {p : Handler α}
    (hp : Issues KeepsCount p) (hQ : ∀ r, Q r false) : Counts u db₀ i op Q p false := by
  refine quiet_counts ?_ hQ
  refine Program.Calls.mono ?_ hp
  intro c hc
  refine ⟨hc, ?_⟩
  intro hfalse
  cases hfalse

theorem issues_keepsCount {p : Handler α} (hp : Issues Plain p) : Issues KeepsCount p :=
  Program.Calls.mono (fun _ hc => keepsCount_of_plain hc) hp

/-- `currentUser` returns the account that was asked for. -/
theorem currentUser_counts (id : Uuid) :
    Counts u db₀ i op (fun r m => m = false ∧ ∀ user, r = .ok user → user.id = id)
      (currentUser id) false := by
  have hfind : Counts u db₀ i op
      (fun r m => m = false ∧ ∀ user, r = .ok (some user) → user.id = id)
      (sql (.findUser id)) false := by
    refine ⟨fun hfalse => (by cases hfalse), ?_⟩
    intro s μ ok hI hi _
    refine ⟨false, ?_, rfl, ?_⟩
    · rw [← hi, Function.update_eq_self]
      exact hI.keepsCount (c := .sql (.findUser id)) trivial ok
    · cases ok with
      | false =>
          intro user hnone
          cases hnone
      | true =>
          intro user hsome
          injection hsome with hfound
          exact user_id_of_findById hfound
  unfold currentUser
  refine hfind.attempt_bind ?_ ?_
  · rintro found m ⟨rfl, hid⟩
    cases found with
    | none =>
        exact ⟨rfl, fun _ hnone => by cases hnone⟩
    | some user =>
        rw [show okOr (some user) ApiError.unauthorized = pure user from rfl, pure_bind]
        refine Follows.attempt_bind (plain_counts (Q := fun _ m => m = false)
          (issues_failIf _ _) fun _ => rfl) ?_ ?_
        · rintro _ m rfl
          exact ⟨rfl, fun _ hsame => by cases hsame; exact hid user rfl⟩
        · rintro e m rfl
          exact ⟨rfl, fun _ hnone => by cases hnone⟩
  · rintro e m ⟨rfl, _⟩
    exact ⟨rfl, fun _ hnone => by cases hnone⟩

/-- The check passes only if there is room, and the request then has counted. -/
theorem checkDeviceLimit_counts (userId : Uuid) :
    Counts u db₀ i op
      (fun r m => match r with
        | .ok _ => m = (userId == u)
        | .error _ => m = false)
      (Devices.checkDeviceLimit userId) false := by
  have hlimit : Counts u db₀ i op
      (fun r m => m = false ∧ ∀ n : Int, r = .ok n → n = Db.Users.deviceLimit userId db₀)
      (sql (.deviceLimit userId)) false := by
    refine ⟨fun hfalse => (by cases hfalse), ?_⟩
    intro s μ ok hI hi _
    refine ⟨false, ?_, rfl, ?_⟩
    · rw [← hi, Function.update_eq_self]
      exact hI.keepsCount (c := .sql (.deviceLimit userId)) trivial ok
    · intro n hn
      cases ok with
      | false =>
          cases hn
      | true =>
          injection hn with hn
          have husers := hI.users
          rw [← hn]
          simp only [Db.Users.deviceLimit, Db.Users.findById, husers]
  have hcount : ∀ limit : Int, limit = Db.Users.deviceLimit userId db₀ →
      Counts u db₀ i op
        (fun (r : Except ApiError (List Device)) m => match r with
          | .ok existing =>
              m = (userId == u && decide (existing.length < Devices.asUsize limit))
          | .error _ => m = false)
        (sql (.listForUser userId)) false := by
    rintro limit rfl
    refine ⟨fun hfalse => (by cases hfalse), ?_⟩
    intro s μ ok hI hi _
    cases ok with
    | false =>
        refine ⟨false, hI.drop rfl ?_, rfl⟩
        have hself : Function.update μ i false = μ := by
          rw [← hi, Function.update_eq_self]
        rw [hself]
        exact fun _ hj => hj
    | true =>
        refine ⟨_, ?_, rfl⟩
        refine ⟨hI.users, hI.bound, ?_⟩
        intro j hj
        by_cases hji : j = i
        · rw [hji, Function.update_self] at hj
          simp only [Bool.and_eq_true, beq_iff_eq, decide_eq_true_eq] at hj
          obtain ⟨rfl, hroom⟩ := hj
          exact hroom
        · rw [Function.update_of_ne hji] at hj
          exact hI.room j hj
  unfold Devices.checkDeviceLimit
  refine hlimit.attempt_bind ?_ ?_
  · rintro limit m ⟨rfl, hn⟩
    refine (hcount limit (hn limit rfl)).attempt_bind ?_ ?_
    · rintro existing m rfl
      by_cases hroom : existing.length < Devices.asUsize limit
      · have hfail : decide (Devices.asUsize limit ≤ existing.length) = false := by
          simpa using hroom
        rw [hfail]
        show _ = _
        simp [hroom]
      · have hfail : decide (Devices.asUsize limit ≤ existing.length) = true := by
          simpa using hroom
        rw [hfail]
        show _ = _
        simp [hroom]
    · intro e m hm
      exact hm
  · rintro e m ⟨rfl, _⟩
    rfl

/-- A request that has counted stores its device; whatever the outcome is, it has then
to count again. -/
theorem insertDevice_counts (draw : Devices.Draw) (new : Db.Devices.NewDevice)
    (hm : new.userId = u → m = true) (hop : m = true → op.provisions u = true) :
    Counts u db₀ i op (fun _ m => m = false) (Devices.insertDevice draw new) m := by
  have hstore : Counts u db₀ i op (fun _ m => m = false)
      (trySql (.createDevice draw.id new)) m := by
    refine ⟨fun htrue => ⟨hop htrue, rfl⟩, ?_⟩
    intro s μ ok hI hi hcond
    refine ⟨false, ?_, rfl⟩
    have hdrop : ∀ j, Function.update μ i false j = true → j ≠ i ∧ μ j = true := by
      intro j hj
      by_cases hji : j = i
      · rw [hji, Function.update_self] at hj
        cases hj
      · rw [Function.update_of_ne hji] at hj
        exact ⟨hji, hj⟩
    have hrows := sem_rows (.sql (.createDevice draw.id new)) ok s
    cases hcall : (ApiCmd.sql (.createDevice draw.id new)).acceptedSql ok s.db with
    | none =>
        rw [hcall] at hrows
        exact hI.drop hrows fun j hj => (hdrop j hj).2
    | some q =>
        cases ApiCmd.sql.inj (ApiCmd.acceptedSql_eq_some hcall)
        rw [hcall] at hrows
        have hcount := liveCount_insert (u := u) hrows.2
        refine ⟨hrows.1.trans hI.users, ?_, ?_⟩
        · refine Nat.le_trans (Nat.le_of_eq hcount) ?_
          split
          · rename_i huser
            have hroom := hI.room i (hi.trans (hm huser))
            exact Nat.le_trans hroom (Nat.le_max_left _ _)
          · exact hI.bound
        · intro j hj
          obtain ⟨hji, hj⟩ := hdrop j hj
          refine Nat.lt_of_le_of_lt (Nat.le_of_eq hcount) ?_
          split
          · rename_i huser
            exact hcond draw.id new hcall huser j hji hj
          · exact hI.room j hj
  unfold Devices.insertDevice
  refine hstore.attempt_bind ?_ fun _ _ h => h
  rintro (e | id) m rfl
  · exact plain_counts (issues_bind (issues_call trivial) fun _ => issues_throw _) fun _ => rfl
  · rfl

section Provision

variable (hop : m = true → op.provisions u = true)

include hop in
/-- The calls between the count and the insert. -/
theorem between_counts {p : Handler α} (hp : Issues (fun c => KeepsCount c ∧ c.afterCount = true) p) :
    Counts u db₀ i op (fun _ m' => m' = m) p m :=
  quiet_counts (Program.Calls.mono (fun _ hc => ⟨hc.1, fun htrue => ⟨hop htrue, hc.2⟩⟩) hp)
    fun _ => rfl

theorem pickServer_between :
    Issues (fun c => KeepsCount c ∧ c.afterCount = true) Devices.pickServer := by
  refine issues_bind (issues_sql ⟨trivial, rfl⟩) fun active => ?_
  refine issues_bind (issues_okOr _ _) fun server => ?_
  refine issues_bind (issues_call ⟨trivial, rfl⟩) fun found => ?_
  exact issues_bind (issues_failIf _ _) fun _ => issues_pure server

theorem takeAddress_between (v : Uuid) (requested : Option (Option Wg.IpAddr)) :
    Issues (fun c => KeepsCount c ∧ c.afterCount = true) (Devices.takeAddress v requested) := by
  rcases requested with _ | _ | ip
  · exact issues_lift ⟨trivial, rfl⟩
  · exact issues_throw _
  · exact issues_lift ⟨trivial, rfl⟩

theorem encrypt_between (plaintext what : String) :
    Issues (fun c => KeepsCount c ∧ c.afterCount = true) (encrypt plaintext what) :=
  issues_lift ⟨trivial, rfl⟩

end Provision

theorem create_counts {userId : Uuid} (body : Devices.CreateBody) (draw : Devices.Draw)
    (hop : userId = u → op.provisions u = true) :
    Counts u db₀ i op (fun _ _ => True) (Devices.create userId body draw) false := by
  unfold Devices.create
  refine (currentUser_counts userId).attempt_bind ?_ fun _ _ _ => trivial
  rintro user m ⟨rfl, hid⟩
  have hprovisions : (user.id == u) = true → op.provisions u = true := by
    intro hu
    exact hop ((hid user rfl).symm.trans (beq_iff_eq.mp hu))
  refine Follows.attempt_bind (plain_counts (Q := fun _ m => m = false) (issues_failIf _ _)
    fun _ => rfl) ?_ fun _ _ _ => trivial
  rintro _ m rfl
  refine (checkDeviceLimit_counts user.id).attempt_bind ?_ fun _ _ _ => trivial
  rintro _ m rfl
  refine (between_counts hprovisions pickServer_between).attempt_bind ?_ fun _ _ _ => trivial
  rintro server m rfl
  refine (between_counts hprovisions (takeAddress_between server.id body.allocatedIp)).attempt_bind
    ?_ fun _ _ _ => trivial
  rintro ip m rfl
  refine (between_counts hprovisions (encrypt_between _ _)).attempt_bind ?_ fun _ _ _ => trivial
  rintro encrypted m rfl
  refine (insertDevice_counts draw _ beq_iff_eq.mpr hprovisions).attempt_bind ?_
    fun _ _ _ => trivial
  rintro deviceId m rfl
  refine plain_counts (issues_keepsCount ?_) fun _ => trivial
  refine issues_bind (issues_sql trivial) fun quota => ?_
  refine issues_bind (seedQuota_issues _ _) fun _ => ?_
  refine issues_bind (issues_lift trivial) fun _ => ?_
  refine issues_bind (issues_lift trivial) fun _ => ?_
  exact installStored_issues _ _ _ _ _

theorem provision_counts (user : User) (body : Devices.ConnectBody) (draw : Devices.Draw)
    (hop : (user.id == u) = true → op.provisions u = true) :
    Counts u db₀ i op (fun _ _ => True) (Devices.provision user body draw) false := by
  unfold Devices.provision
  refine (checkDeviceLimit_counts user.id).attempt_bind ?_ fun _ _ _ => trivial
  rintro _ m rfl
  refine (between_counts hop (provisionName_issues body)).attempt_bind ?_ fun _ _ _ => trivial
  rintro name m rfl
  refine (between_counts hop pickServer_between).attempt_bind ?_ fun _ _ _ => trivial
  rintro server m rfl
  refine (between_counts hop (takeAddress_between server.id none)).attempt_bind ?_
    fun _ _ _ => trivial
  rintro ip m rfl
  refine (between_counts hop (encrypt_between _ _)).attempt_bind ?_ fun _ _ _ => trivial
  rintro encrypted m rfl
  refine (insertDevice_counts draw _ beq_iff_eq.mpr hop).attempt_bind ?_ fun _ _ _ => trivial
  rintro deviceId m rfl
  refine plain_counts (issues_keepsCount ?_) fun _ => trivial
  refine issues_bind (issues_lift trivial) fun _ => ?_
  refine issues_bind (issues_lift trivial) fun _ => ?_
  exact installStored_issues _ _ _ _ _

theorem connect_counts {userId : Uuid} (body : Devices.ConnectBody) (wasOffline : Bool)
    (draw : Devices.Draw) (hop : userId = u → op.provisions u = true) :
    Counts u db₀ i op (fun _ _ => True) (Devices.connect userId body wasOffline draw) false := by
  unfold Devices.connect
  refine (currentUser_counts userId).attempt_bind ?_ fun _ _ _ => trivial
  rintro user m ⟨rfl, hid⟩
  have hprovisions : (user.id == u) = true → op.provisions u = true := by
    intro hu
    exact hop ((hid user rfl).symm.trans (beq_iff_eq.mp hu))
  refine Follows.attempt_bind (plain_counts (Q := fun _ m => m = false)
    (issues_keepsCount (namedDevice_issues _ _)) fun _ => rfl) ?_ fun _ _ _ => trivial
  rintro device m rfl
  split
  · exact plain_counts (issues_keepsCount (reconnect_issues _ _ _)) fun _ => trivial
  · exact provision_counts user body draw hprovisions

theorem teardownDevice_keepsCount (device : Device) :
    Issues KeepsCount (Devices.teardownDevice device) := by
  refine issues_bind (issues_sql rfl) fun n => ?_
  refine issues_bind (issues_failIf _ _) fun _ => ?_
  refine issues_bind (issues_releaseAddress trivial trivial) fun _ => ?_
  exact issues_bind (issues_call trivial) fun _ => issues_pure ()

/-- Every request keeps to the limit from its start. -/
theorem limitOp_counts (i : Nat) (op : LimitOp) :
    Counts u db₀ i op (fun _ _ => True) op.handler false := by
  cases op with
  | create userId body draw =>
      exact create_counts body draw beq_iff_eq.mpr
  | connect userId body wasOffline draw =>
      exact connect_counts body wasOffline draw beq_iff_eq.mpr
  | delete userId deviceId =>
      refine plain_counts ?_ fun _ => trivial
      refine issues_bind (issues_keepsCount (currentUser_issues userId)) fun user => ?_
      refine issues_bind (issues_sql trivial) fun found => ?_
      refine issues_bind (issues_okOr _ _) fun device => ?_
      exact issues_bind (teardownDevice_keepsCount device) fun _ => issues_lift trivial
  | revokeDevice actorId deviceId =>
      refine plain_counts ?_ fun _ => trivial
      refine issues_bind (issues_keepsCount (requireAdmin_issues actorId)) fun _ => ?_
      refine issues_bind (issues_sql trivial) fun found => ?_
      refine issues_bind (issues_okOr _ _) fun device => ?_
      refine issues_bind (issues_failIf _ _) fun _ => ?_
      exact issues_bind (teardownDevice_keepsCount device) fun _ => issues_lift trivial

end Requests

section Main

variable {u : Uuid} {db₀ : Db} {p : RequestPool LimitOp} {μ : Nat → Bool}

/-- The notes of a pool; a request that has ended has no note. -/
def LimitNoted (u : Uuid) (db₀ : Db) (p : RequestPool LimitOp) (μ : Nat → Bool) : Prop :=
  Noted (requestSystem LimitOp.handler) (WithinLimit u db₀) (Counted u) (CallLeavesRoom u db₀)
      (fun _ _ _ => True) false p μ ∧
    ∀ j, nextCall p j = none → μ j = false

theorem limitNoted_of_noted
    (h : Noted (requestSystem LimitOp.handler) (WithinLimit u db₀) (Counted u)
      (CallLeavesRoom u db₀) (fun _ _ _ => True) false p μ) :
    ∃ μ', LimitNoted u db₀ p μ' := by
  refine ⟨_, h.retire (h.inv.drop rfl ?_) (fun _ _ => trivial), ?_⟩
  · intro j hj
    split at hj
    · exact hj
    · cases hj
  · intro j hj
    simp [hj]

/-- A request that has counted stands between its count and its insert. -/
theorem provisioning_of_note (h : LimitNoted u db₀ p μ) {j : Nat} (hj : μ j = true) :
    j < p.threads.length ∧ Provisioning u p j = true := by
  cases hnext : nextCall p j with
  | none =>
      rw [h.2 j hnext] at hj
      cases hj
  | some call =>
      obtain ⟨op, c⟩ := call
      obtain ⟨hop, hc⟩ := h.1.suits hnext hj
      refine ⟨lt_of_nextCall hnext, ?_⟩
      simp [Provisioning, hnext, hop, hc]

/-- The condition on the next calls becomes one on the notes. -/
theorem callLeavesRoom_of_leavesRoom (h : LimitNoted u db₀ p μ) {i : Nat} {ok : Bool}
    {op : LimitOp} {c : ApiCmd} (he : LeavesRoom u p (.step i ok))
    (hc : nextCall p i = some (op, c)) : CallLeavesRoom u db₀ i op c ok p.shared μ := by
  intro id new hcall huser j hji hj
  obtain ⟨hlt, hprov⟩ := provisioning_of_note h hj
  have hstores : storesDevice u p (.step i ok) = true := by
    simp [storesDevice, acceptedCall, hc, hcall, huser]
  rw [← effectiveLimit_congr h.1.inv.users]
  exact he hstores ⟨j, hlt, hji, hprov⟩

/--
In every interleaving of `create` and `connect` requests with revocations in which no
request outdates the count of another one, a user never has more devices than the
limit allows or than the user had at the start.
-/
theorem device_limit_kept (s : Sys) (u : Uuid) (es : List (PoolEvent LimitOp Unit))
    (hrun : Along (poolStep (requestSystem LimitOp.handler)) (LeavesRoom u) (requestIdle s) es) :
    Always (poolStep (requestSystem LimitOp.handler))
      (fun p => liveCount u p.shared.db ≤ max (effectiveLimit u s.db) (liveCount u s.db))
      (requestIdle s) es := by
  refine always_of_along (fun p => ∃ μ, LimitNoted u s.db p μ) ?_ ?_ ?_ hrun
  · rintro p e ⟨μ, hp⟩ he
    have hstep : ∃ μ', Noted (requestSystem LimitOp.handler) (WithinLimit u s.db) (Counted u)
        (CallLeavesRoom u s.db) (fun _ _ _ => True) false
        (poolStep (requestSystem LimitOp.handler) p e) μ' := by
      refine noted_step ?_ hp.1 ?_ ?_ ?_
      · intro i op _
        exact limitOp_counts i op
      · rintro i ok op c rfl hc
        exact callLeavesRoom_of_leavesRoom hp he hc
      · intro i op q _ _
        refine hp.1.inv.drop rfl ?_
        intro j hj
        by_cases hji : j = i
        · rw [hji, Function.update_self] at hj
          cases hj
        · rwa [Function.update_of_ne hji] at hj
      · intro g _
        exact hp.1.inv.drop rfl fun _ hfalse => by cases hfalse
    obtain ⟨μ', hμ'⟩ := hstep
    exact limitNoted_of_noted hμ'
  · rintro p ⟨μ, hp⟩
    exact hp.1.inv.bound
  · refine ⟨fun _ => false, noted_init ?_, fun _ _ => rfl⟩
    exact ⟨rfl, Nat.le_max_right _ _, fun _ hfalse => by cases hfalse⟩

/-- A running host whose user 2 may have one device. -/
def sampleLimited : Sys where
  db :=
    { toTables := { sampleTables with
        users := sampleTables.users.map fun v => { v with deviceLimit := 1 } }
      valid := by decide }
  allocators := fun v => if v = 10 then some (Wg.IpAllocator.new Bootstrap.defaultCidr) else none
  interface := Interface.empty
  up := true
  inFlight := []

/-- The user creates a device, revokes it and connects with a new one. -/
theorem device_limit_kept_sample :
    let p := runEvents (poolStep (requestSystem LimitOp.handler)) (requestIdle sampleLimited)
      (PoolEvent.spawn (LimitOp.create 2 ⟨"laptop", none, none⟩ ⟨20, "private", sampleKey⟩) ::
        List.replicate 15 (PoolEvent.step 0 true) ++ PoolEvent.spawn (LimitOp.delete 2 20) ::
          List.replicate 8 (PoolEvent.step 1 true) ++
            PoolEvent.spawn
                (LimitOp.connect 2 ⟨none, none, none, none⟩ false ⟨21, "other", sampleOtherKey⟩) ::
              List.replicate 15 (PoolEvent.step 2 true))
    liveCount 2 p.shared.db ≤ 1 ∧ p.shared.db.devices.map (fun d => (d.id, d.live)) =
      [(20, false), (21, true)] :=
  ⟨(device_limit_kept sampleLimited 2 _ (by decide)).last, by decide⟩

/-- Both requests count before either of them stores its device. -/
theorem concurrent_creates_exceed_limit :
    ¬ Always (poolStep (requestSystem LimitOp.handler))
        (fun p => liveCount 2 p.shared.db ≤
          max (effectiveLimit 2 sampleLimited.db) (liveCount 2 sampleLimited.db))
        (requestIdle sampleLimited)
        (PoolEvent.spawn (LimitOp.create 2 ⟨"laptop", none, none⟩ ⟨20, "private", sampleKey⟩) ::
          PoolEvent.spawn (LimitOp.create 2 ⟨"phone", none, none⟩ ⟨21, "other", sampleOtherKey⟩) ::
            List.replicate 3 (PoolEvent.step 0 true) ++ List.replicate 15 (PoolEvent.step 1 true) ++
              List.replicate 12 (PoolEvent.step 0 true)) := by
  intro h
  have hlast := h.last
  revert hlast
  decide

end Main

end Api
end ZeroVpn
