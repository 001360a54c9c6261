import ZeroVpn.Api.DeviceRequests
import ZeroVpn.Api.TunnelAccess
import ZeroVpn.Library.Notes

/-!
# Revoked devices

The pause routes refuse a revoked device by the row they read first, and
`set_status` then writes whatever the row has become.  The quota sweep repeats
its check in the `WHERE` clause of `mark_resumed`.

`revocation_terminal` says that revoked devices stay revoked in every
interleaving of requests on devices in which no device is revoked between the
read and the write of a pause or unpause request.  Every request carries a
note: the device that it has read and found not revoked.
-/

namespace ZeroVpn

open Library
open Library.Attempt (Issues issues_bind issues_pure issues_lift)

namespace Api

open Db (Uuid Device User DeviceStatus)

/-- The device is stored as revoked. -/
def RevokedRow (id : Uuid) (devices : List Device) : Prop :=
  ∃ d ∈ devices, d.id = id ∧ d.status = .revoked

instance (id : Uuid) (devices : List Device) : Decidable (RevokedRow id devices) :=
  inferInstanceAs (Decidable (∃ d ∈ devices, _))

/-- The write gives a revoked row another status. -/
def DbCall.revivesRow : DbCall → Device → Bool
  | setStatus userId deviceId status, d =>
      Db.Devices.owned userId deviceId d && d.status == .revoked && status != .revoked
  | _, _ => false

theorem DbCall.revoked_of_revivesRow {q : DbCall} {d : Device} (h : q.revivesRow d = true) :
    d.status = .revoked := by
  unfold DbCall.revivesRow at h
  split at h
  · simp only [Bool.and_eq_true, beq_iff_eq] at h
    exact h.1.2
  · cases h

/-- The device that a call takes out of another status than revoked, or back into one. -/
def ApiCmd.pauses : ApiCmd → Option Uuid
  | .sql (.setStatus _ deviceId status) => if status = .revoked then none else some deviceId
  | _ => none

/-- Request `j` has read the device and has not yet written its status. -/
def BetweenReadAndWrite (id : Uuid) (p : RequestPool DeviceOp) (j : Nat) : Bool :=
  match nextCall p j with
  | some (_, c) => c.pauses == some id
  | none => false

/-- The device that an event revokes. -/
def revokedDevice (p : RequestPool DeviceOp) (e : PoolEvent DeviceOp Unit) : Option Uuid :=
  match acceptedCall p e with
  | some (.setStatus _ deviceId .revoked) => some deviceId
  | _ => none

/-- The condition on one event: it revokes no device that a pause or unpause request has read
and has not yet written. -/
def RevokesSettled (p : RequestPool DeviceOp) (e : PoolEvent DeviceOp Unit) : Prop :=
  ∀ id ∈ revokedDevice p e, ∀ j < p.threads.length, BetweenReadAndWrite id p j = false

instance (p : RequestPool DeviceOp) (e : PoolEvent DeviceOp Unit) :
    Decidable (RevokesSettled p e) :=
  decidable_of_iff
    ((revokedDevice p e).all
      (fun id => decide (∀ j < p.threads.length, BetweenReadAndWrite id p j = false)) = true)
    (by simp only [RevokesSettled, Option.all_eq_true, decide_eq_true_iff, Option.mem_def])

section Writes

variable {devices : List Device} {d : Device}

/-- What a statement does to a revoked row. -/
theorem deviceAfter_revoked (q : DbCall) (hd : d.status = .revoked) :
    (q.deviceAfter d).status = .revoked ↔ q.revivesRow d = false := by
  cases q with
  | setStatus userId deviceId status =>
      simp only [DbCall.deviceAfter, DbCall.revivesRow]
      cases howned : Db.Devices.owned userId deviceId d with
      | true =>
          simp [hd]
      | false =>
          simp [hd]
  | markAutoPaused id | markResumed id =>
      simp [DbCall.deviceAfter, DbCall.revivesRow, hd]
  | setPrivateKeyEncrypted _ _ _ | updatePublicKey _ _ _ | setQuota _ _ | softDelete _ _
  | resetDueDevices _ _ =>
      refine ⟨fun _ => rfl, fun _ => ?_⟩
      simp only [DbCall.deviceAfter]
      split
      · first
          | exact hd
          | rfl
      · exact hd
  | _ =>
      exact ⟨fun _ => rfl, fun _ => hd⟩

/-- A statement that erases no row and revives none keeps all revoked rows. -/
theorem revoked_after (q : DbCall) (hq : ∀ userId, q ≠ .hardDelete userId)
    (hnone : ∀ d ∈ devices, q.revivesRow d = false) {id : Uuid} (hid : RevokedRow id devices) :
    RevokedRow id (q.devicesAfter devices) := by
  obtain ⟨d, hd, rfl, hrevoked⟩ := hid
  refine ⟨q.deviceAfter d, DbCall.mem_devicesAfter hq hd, DbCall.deviceAfter_id q d, ?_⟩
  exact (deviceAfter_revoked q hrevoked).mpr (hnone d hd)

/-- Only a revocation revokes a row, or the deletion of the account. -/
theorem revoked_of_deviceAfter {q : DbCall} (hq : DeviceWork true (.sql q) ∨
      ∃ userId deviceId status, q = .setStatus userId deviceId status)
    (h : (q.deviceAfter d).status = .revoked) :
    d.status = .revoked ∨ ∃ userId, q = .setStatus userId d.id .revoked := by
  cases q with
  | setStatus userId deviceId status =>
      simp only [DbCall.deviceAfter] at h
      split at h
      · rename_i howned
        simp only [Db.Devices.owned, Bool.and_eq_true, beq_iff_eq] at howned
        refine Or.inr ⟨userId, ?_⟩
        rw [howned.2, ← h]
      · exact Or.inl h
  | softDelete userId now =>
      rcases hq with hq | ⟨_, _, _, hq⟩
      · exact hq.elim
      · cases hq
  | setPrivateKeyEncrypted _ _ _ | updatePublicKey _ _ _ | setQuota _ _ | resetDueDevices _ _
  | markAutoPaused _ | markResumed _ =>
      simp only [DbCall.deviceAfter] at h
      split at h
      · first
          | exact Or.inl h
          | cases h
      · exact Or.inl h
  | _ =>
      exact Or.inl h

end Writes

section Requests

variable {s : Sys} {μ : Nat → Option Uuid}

/-- The devices of the notes are not revoked. -/
def NotRevoked (s : Sys) (μ : Nat → Option Uuid) : Prop :=
  ∀ j id, μ j = some id → ¬RevokedRow id s.db.devices

/-- A request has a note exactly when it is about to write the device. -/
def Pauses (_ : DeviceOp) (c : ApiCmd) (m : Option Uuid) : Prop := m = c.pauses

/-- The condition of a call, in terms of the notes. -/
def CallRevokesSettled (_ : Nat) (_ : DeviceOp) (c : ApiCmd) (ok : Bool) (s : Sys)
    (μ : Nat → Option Uuid) : Prop :=
  ∀ userId deviceId, c.acceptedSql ok s.db = some (.setStatus userId deviceId .revoked) →
    ∀ j, μ j ≠ some deviceId

/-- A request with note `m` may run `p`, and ends with `Q`. -/
abbrev Rereads (i : Nat) (op : DeviceOp) {α : Type} (Q : Except ApiError α → Option Uuid → Prop)
    (p : Handler α) (m : Option Uuid) : Prop :=
  Follows (requestSystem DeviceOp.handler) NotRevoked Pauses CallRevokesSettled i op Q p.run m

/-- The statements of the pool revoke no device that a request has read. -/
theorem NotRevoked.call (h : NotRevoked s μ) {c : ApiCmd} {ok : Bool}
    (hc : DeviceWork true c ∨ ∃ userId deviceId status, c = .sql (.setStatus userId deviceId status))
    (hcond : ∀ userId deviceId,
      c.acceptedSql ok s.db = some (.setStatus userId deviceId .revoked) →
        ∀ j, μ j ≠ some deviceId) :
    NotRevoked (c.sem ok s).1 μ := by
  have hrows := sem_rows c ok s
  cases hcall : c.acceptedSql ok s.db with
  | none =>
      rw [hcall] at hrows
      have hsame : (c.sem ok s).1.db = s.db := hrows
      rw [NotRevoked, hsame]
      exact h
  | some q =>
      rw [hcall] at hrows hcond
      have hq := ApiCmd.acceptedSql_eq_some hcall
      subst hq
      rintro j id hj ⟨d', hd', rfl, hrevoked⟩
      rw [hrows.2] at hd'
      rcases DbCall.of_mem_devicesAfter hd' with ⟨d, hd, rfl⟩ | ⟨id, new, rfl, rfl⟩
      · rw [DbCall.deviceAfter_id] at hj
        have hclass : DeviceWork true (.sql q) ∨
            ∃ userId deviceId status, q = .setStatus userId deviceId status := by
          rcases hc with hc | ⟨userId, deviceId, status, hc⟩
          · exact Or.inl hc
          · exact Or.inr ⟨userId, deviceId, status, ApiCmd.sql.inj hc⟩
        rcases revoked_of_deviceAfter hclass hrevoked with hold | ⟨userId, rfl⟩
        · exact h j d.id hj ⟨d, hd, rfl, hold⟩
        · exact hcond userId d.id rfl j hj
      · cases hrevoked

/-- A request that forgets what it has read. -/
theorem NotRevoked.forget (h : NotRevoked s μ) (i : Nat) :
    NotRevoked s (Function.update μ i none) := by
  intro j id hj
  by_cases hji : j = i
  · rw [hji, Function.update_self] at hj
    cases hj
  · rw [Function.update_of_ne hji] at hj
    exact h j id hj

variable {i : Nat} {op : DeviceOp} {α β : Type}

/-- Calls that change no status by `set_status`. -/
theorem quiet_rereads {Q : Except ApiError α → Option Uuid → Prop} {p : Handler α}
    (hp : Issues (DeviceWork true) p) (hQ : ∀ r, Q r none) : Rereads i op Q p none := by
  refine follows_of_calls (P := DeviceWork true) ?_ ?_ hp hQ
  · intro c hc
    cases c with
    | sql q =>
        cases q with
        | setStatus userId deviceId status =>
            cases hc
        | _ =>
            rfl
    | _ =>
        rfl
  · intro c s μ ok hc hs hcond
    exact hs.call (Or.inl hc) hcond

/-- A sequence that starts with such calls. -/
theorem quiet_first {Q : Except ApiError β → Option Uuid → Prop} {p : Handler α}
    {k : α → Handler β} (hp : Issues (DeviceWork true) p) (hk : ∀ a, Rereads i op Q (k a) none)
    (herror : ∀ e, Q (.error e) none) : Rereads i op Q (p >>= k) none := by
  refine Follows.attempt_bind (quiet_rereads (Q := fun _ m => m = none) hp fun _ => rfl) ?_ ?_
  · rintro a m rfl
    exact hk a
  · rintro e m rfl
    exact herror e

/-- The note of a request that has read the device. -/
def noteOf (d : Device) : Option Uuid := if d.status = .revoked then none else some d.id

/-- A device that is read is noted if it is not revoked. -/
theorem NotRevoked.read (h : NotRevoked s μ) {d : Device} (hd : d ∈ s.db.devices) (i : Nat) :
    NotRevoked s (Function.update μ i (noteOf d)) := by
  unfold noteOf
  split
  · exact h.forget i
  · rename_i hlive
    intro j id hj
    by_cases hji : j = i
    · rw [hji, Function.update_self] at hj
      cases hj
      rintro ⟨d', hd', hid, hrevoked⟩
      rw [s.db.deviceId_unique hd' hd hid] at hrevoked
      exact hlive hrevoked
    · rw [Function.update_of_ne hji] at hj
      exact h j id hj

/-- A device that is looked up is noted. -/
theorem NotRevoked.found (h : NotRevoked s μ) {found : Option Device}
    (hfound : ∀ d, found = some d → d ∈ s.db.devices) (i : Nat) :
    NotRevoked s (Function.update μ i (found.elim none noteOf)) := by
  cases found with
  | none =>
      exact h.forget i
  | some d =>
      exact h.read (hfound d rfl) i

theorem findForUser_rereads (userId deviceId : Uuid) :
    Rereads i op (fun r m => match r with
      | .ok found => m = Option.elim found none noteOf
      | .error _ => m = none) (sql (.findForUser userId deviceId)) none := by
  refine Follows.mono (follows_read rfl (q := .findForUser userId deviceId)
    (fun found : Option Device => found.elim none noteOf) ?obligation ?read fun _ => rfl) ?same
  case obligation =>
    rfl
  case read =>
    intro s μ h _
    exact ⟨_, rfl, NotRevoked.found h (fun _ hd => (findForUser_eq_some hd).1) i⟩
  case same =>
    rintro (e | found) m h
    · exact h
    · exact h

theorem getById_rereads (deviceId : Uuid) :
    Rereads i op (fun r m => match r with
      | .ok found => m = Option.elim found none noteOf
      | .error _ => m = none) (sql (.getById deviceId)) none := by
  refine Follows.mono (follows_read rfl (q := .getById deviceId)
    (fun found : Option Device => found.elim none noteOf) ?obligation ?read fun _ => rfl) ?same
  case obligation =>
    rfl
  case read =>
    intro s μ h _
    exact ⟨_, rfl, NotRevoked.found h (fun _ hd => (getById_eq_some hd).1) i⟩
  case same =>
    rintro (e | found) m h
    · exact h
    · exact h

/-- The statement of `set_status`. -/
theorem setStatus_rereads (userId deviceId : Uuid) (status : DeviceStatus) :
    Rereads i op (fun _ m => m = none) (sql (.setStatus userId deviceId status))
      (ApiCmd.pauses (.sql (.setStatus userId deviceId status))) := by
  refine ⟨rfl, ?_⟩
  intro s μ ok hI hi hcond
  refine ⟨none, NotRevoked.forget ?_ i, rfl⟩
  exact hI.call (Or.inr ⟨userId, deviceId, status, rfl⟩) hcond

/-- The write of a pause or unpause request follows its check. -/
theorem applyPauseState_rereads (device : Device) {target : DeviceStatus}
    (htarget : target ≠ .revoked) :
    Rereads i op (fun _ m => m = none) (Devices.applyPauseState device target) (noteOf device) := by
  unfold Devices.applyPauseState
  by_cases hrevoked : device.status = .revoked
  · -- the guard ends the request
    have hguard : (device.status == .revoked) = true := by
      rw [hrevoked]
      rfl
    have hnote : noteOf device = none := if_pos hrevoked
    rw [hguard, hnote]
    rfl
  · have hguard : (device.status == .revoked) = false := by
      simpa using hrevoked
    have hnote : noteOf device =
        ApiCmd.pauses (.sql (.setStatus device.userId device.id target)) := by
      simp [noteOf, ApiCmd.pauses, hrevoked, htarget]
    rw [hguard, hnote]
    refine (setStatus_rereads device.userId device.id target).attempt_bind ?_ fun _ _ h => h
    rintro n m rfl
    refine quiet_first (issues_failIf _ _) (fun _ => ?_) fun _ => rfl
    exact quiet_rereads (reflectStatus_work device target) fun _ => rfl

/-- A handler that goes on with the device that it looked up. -/
theorem okOr_rereads {e : ApiError} {found : Option Device} {m : Option Uuid}
    {k : Device → Handler β} (hm : m = found.elim none noteOf)
    (hk : ∀ d, Rereads i op (fun _ m => m = none) (k d) (noteOf d)) :
    Rereads i op (fun _ m => m = none) (okOr found e >>= k) m := by
  subst hm
  cases found with
  | none =>
      rfl
  | some d =>
      exact hk d

theorem setPauseState_rereads (userId deviceId : Uuid) {target : DeviceStatus}
    (htarget : target ≠ .revoked) :
    Rereads i op (fun _ m => m = none) (Devices.setPauseState userId deviceId target) none := by
  unfold Devices.setPauseState
  refine (findForUser_rereads userId deviceId).attempt_bind ?_ fun _ _ h => h
  intro found m hm
  refine okOr_rereads hm fun device => ?_
  refine (applyPauseState_rereads device htarget).attempt_bind ?_ fun _ _ h => h
  rintro _ m rfl
  exact quiet_rereads (issues_lift trivial) fun _ => rfl

theorem setDevicePause_rereads (deviceId : Uuid) {target : DeviceStatus}
    (htarget : target ≠ .revoked) :
    Rereads i op (fun _ m => m = none) (Admin.setDevicePause deviceId target) none := by
  unfold Admin.setDevicePause
  refine (getById_rereads deviceId).attempt_bind ?_ fun _ _ h => h
  intro found m hm
  refine okOr_rereads hm fun device => ?_
  refine (applyPauseState_rereads device htarget).attempt_bind ?_ fun _ _ h => h
  rintro _ m rfl
  exact quiet_rereads (issues_lift trivial) fun _ => rfl

/-- `teardown_device` writes without a note. -/
theorem teardownDevice_rereads (device : Device) :
    Rereads i op (fun _ m => m = none) (Devices.teardownDevice device) none := by
  unfold Devices.teardownDevice
  refine (setStatus_rereads device.userId device.id .revoked).attempt_bind ?_ fun _ _ h => h
  rintro n m rfl
  refine quiet_rereads ?_ fun _ => rfl
  refine issues_bind (issues_failIf _ _) fun _ => ?_
  refine issues_bind (issues_releaseAddress trivial trivial) fun _ => ?_
  exact issues_bind (issues_call trivial) fun _ => issues_pure ()

/-- Every request of the pool rereads the device before it changes its status. -/
theorem deviceOp_rereads (i : Nat) (op : DeviceOp) :
    Rereads i op (fun _ m => m = none) op.handler none := by
  have hop := op.2
  have hhandler : op.handler = op.1.handler := rfl
  rw [hhandler]
  generalize op.1 = request at hop
  cases request with
  | connect userId body wasOffline draw =>
      exact quiet_rereads (connect_work userId body wasOffline draw) fun _ => rfl
  | rotateKeys userId deviceId draw =>
      exact quiet_rereads (rotateKeys_work userId deviceId draw) fun _ => rfl
  | pause userId deviceId =>
      exact quiet_first (currentUser_work userId)
        (fun user => setPauseState_rereads user.id deviceId DeviceStatus.noConfusion) fun _ => rfl
  | unpause userId deviceId =>
      exact quiet_first (currentUser_work userId)
        (fun user => setPauseState_rereads user.id deviceId DeviceStatus.noConfusion) fun _ => rfl
  | delete userId deviceId =>
      refine quiet_first (currentUser_work userId) (fun user => ?_) fun _ => rfl
      refine quiet_first (issues_sql trivial) (fun found => ?_) fun _ => rfl
      refine quiet_first (issues_okOr _ _) (fun device => ?_) fun _ => rfl
      refine (teardownDevice_rereads device).attempt_bind ?_ fun _ _ h => h
      rintro _ m rfl
      exact quiet_rereads (issues_lift trivial) fun _ => rfl
  | pauseDevice actorId deviceId =>
      exact quiet_first (requireAdmin_work actorId)
        (fun _ => setDevicePause_rereads deviceId DeviceStatus.noConfusion) fun _ => rfl
  | unpauseDevice actorId deviceId =>
      exact quiet_first (requireAdmin_work actorId)
        (fun _ => setDevicePause_rereads deviceId DeviceStatus.noConfusion) fun _ => rfl
  | revokeDevice actorId deviceId =>
      refine quiet_first (requireAdmin_work actorId) (fun _ => ?_) fun _ => rfl
      refine quiet_first (issues_sql trivial) (fun found => ?_) fun _ => rfl
      refine quiet_first (issues_okOr _ _) (fun device => ?_) fun _ => rfl
      refine quiet_first (issues_failIf _ _) (fun _ => ?_) fun _ => rfl
      refine (teardownDevice_rereads device).attempt_bind ?_ fun _ _ h => h
      rintro _ m rfl
      exact quiet_rereads (issues_lift trivial) fun _ => rfl
  | quotaSweep now =>
      exact quiet_rereads (runOnce_work now) fun _ => rfl
  | _ =>
      cases hop

end Requests

section Main

/-- The notes of a pool of requests on devices. -/
abbrev RevocationNoted (p : RequestPool DeviceOp) (μ : Nat → Option Uuid) : Prop :=
  Noted (requestSystem DeviceOp.handler) NotRevoked Pauses CallRevokesSettled
    (fun _ _ m => m = none) none p μ

variable {p : RequestPool DeviceOp} {μ : Nat → Option Uuid}

/-- A request with a note stands between its read and its write. -/
theorem betweenReadAndWrite_of_note (h : RevocationNoted p μ) {j : Nat} {id : Uuid}
    (hj : μ j = some id) : j < p.threads.length ∧ BetweenReadAndWrite id p j = true := by
  cases hnext : nextCall p j with
  | none =>
      have hnone : μ j = none := by
        rcases h.settled hnext with ⟨_, _, hnone⟩ | hnone
        · exact hnone
        · exact hnone
      rw [hnone] at hj
      cases hj
  | some call =>
      obtain ⟨op, c⟩ := call
      have hpauses : μ j = c.pauses := h.suits hnext
      refine ⟨lt_of_nextCall hnext, ?_⟩
      simp [BetweenReadAndWrite, hnext, ← hpauses, hj]

/-- The condition on the next calls becomes one on the notes. -/
theorem callRevokesSettled_of_event (h : RevocationNoted p μ) {i : Nat} {ok : Bool}
    {op : DeviceOp} {c : ApiCmd} (he : RevokesSettled p (.step i ok))
    (hc : nextCall p i = some (op, c)) : CallRevokesSettled i op c ok p.shared μ := by
  intro userId deviceId hcall j hj
  obtain ⟨hlt, hbetween⟩ := betweenReadAndWrite_of_note h hj
  have hrevoked : deviceId ∈ revokedDevice p (.step i ok) := by
    simp [revokedDevice, acceptedCall, hc, hcall]
  rw [he deviceId hrevoked j hlt] at hbetween
  cases hbetween

theorem revocationNoted_step (h : RevocationNoted p μ) {e : PoolEvent DeviceOp Unit}
    (he : RevokesSettled p e) :
    ∃ μ', RevocationNoted (poolStep (requestSystem DeviceOp.handler) p e) μ' := by
  refine noted_step ?_ h ?_ ?_ ?_
  · intro i op _
    exact deviceOp_rereads i op
  · rintro i ok op c rfl hc
    exact callRevokesSettled_of_event h he hc
  · intro i op q _ _
    exact h.inv.forget i
  · intro g _ j id hnone
    cases hnone

/-- A write that revives a row belongs to a request that has read the device. -/
theorem note_of_revives (h : RevocationNoted p μ) {e : PoolEvent DeviceOp Unit} {q : DbCall}
    (hcall : acceptedCall p e = some q) {d : Device} (hd : q.revivesRow d = true) :
    ∃ i, μ i = some d.id := by
  cases e with
  | spawn op | crash i | restart g =>
      cases hcall
  | step i ok =>
      cases hnext : nextCall p i with
      | none =>
          simp [acceptedCall, hnext] at hcall
      | some call =>
          obtain ⟨op, c⟩ := call
          simp only [acceptedCall, hnext] at hcall
          have hpauses : μ i = c.pauses := h.suits hnext
          rw [ApiCmd.acceptedSql_eq_some hcall] at hpauses
          refine ⟨i, hpauses.trans ?_⟩
          unfold DbCall.revivesRow at hd
          split at hd
          · rename_i userId deviceId status
            simp only [Db.Devices.owned, Bool.and_eq_true, beq_iff_eq, bne_iff_ne] at hd
            obtain ⟨⟨⟨_, hid⟩, _⟩, hstatus⟩ := hd
            rw [hid]
            exact if_neg hstatus
          · cases hd

/-- One event of such a pool keeps all revoked devices revoked. -/
theorem revoked_step (hinv : DeviceInv p) (h : RevocationNoted p μ) (e : PoolEvent DeviceOp Unit)
    {id : Uuid} (hid : RevokedRow id p.shared.db.devices) :
    RevokedRow id (poolStep (requestSystem DeviceOp.handler) p e).shared.db.devices := by
  have hrows := request_rows DeviceOp.handler p e
  cases hcall : acceptedCall p e with
  | none =>
      rw [hcall] at hrows
      have hsame : (poolStep (requestSystem DeviceOp.handler) p e).shared.db = p.shared.db :=
        hrows
      rw [hsame]
      exact hid
  | some q =>
      rw [hcall] at hrows
      rw [hrows.2]
      obtain ⟨op, _, hwork⟩ := acceptedCall_of_inv hinv hcall
      refine revoked_after q (fun userId hq => not_hardDelete_of_work hwork hq) ?_ hid
      intro d hd
      by_contra hrevives
      rw [Bool.not_eq_false] at hrevives
      -- the request that writes has read the device and found it not revoked
      obtain ⟨i, hnote⟩ := note_of_revives h hcall hrevives
      exact h.inv i d.id hnote ⟨d, hd, rfl, DbCall.revoked_of_revivesRow hrevives⟩

/--
In an interleaving of requests on devices in which no device is revoked between the
read and the write of a pause or unpause request, every revoked device stays
revoked.
-/
theorem revocation_terminal (s : Sys) (es : List (PoolEvent DeviceOp Unit))
    (hrun : Along (poolStep (requestSystem DeviceOp.handler)) RevokesSettled (requestIdle s) es) :
    Persists (poolStep (requestSystem DeviceOp.handler))
      (fun id p => RevokedRow id p.shared.db.devices) (requestIdle s) es := by
  rw [persists_iff_along]
  refine along_of_inv (fun p => DeviceInv p ∧ ∃ μ, RevocationNoted p μ) ?_ ?_ ?_ hrun
  · rintro p e ⟨hinv, μ, h⟩ he
    exact ⟨deviceInv_step p e hinv, revocationNoted_step h he⟩
  · rintro p e ⟨hinv, μ, h⟩ _ id hid
    exact revoked_step hinv h e hid
  · refine ⟨deviceInv_idle s, fun _ => none, noted_init ?_⟩
    intro j id hnone
    cases hnone

/-- The user 2 with the connected device 20. -/
def sampleConnected : Sys := runEvents complete (Sys.off sampleDb) sampleStart

/-- An unpause request and a revocation both read the active device 20; the
revocation writes first. -/
def sampleLateUnpause : List (PoolEvent DeviceOp Unit) :=
  [.spawn ⟨.unpause 2 20, rfl⟩, .step 0 true, .step 0 true,
    .spawn ⟨.delete 2 20, rfl⟩, .step 1 true, .step 1 true, .step 1 true]

/-- A run in which the unpause request has written before the device is revoked, and another one
comes after it. -/
def sampleRevocation : List (PoolEvent DeviceOp Unit) :=
  [.spawn ⟨.unpause 2 20, rfl⟩, .step 0 true, .step 0 true, .spawn ⟨.delete 2 20, rfl⟩,
    .step 1 true, .step 1 true, .step 0 true, .step 1 true, .spawn ⟨.unpause 2 20, rfl⟩] ++
    List.replicate 3 (.step 2 true)

theorem revocation_terminal_sample :
    RevokedRow 20 (runEvents (poolStep (requestSystem DeviceOp.handler))
      (requestIdle sampleConnected) sampleRevocation).shared.db.devices :=
  revocation_terminal sampleConnected sampleRevocation (by decide) 20
    (sampleRevocation.take 8) (sampleRevocation.drop 8) [] (by simp) (by decide)

/-- The late write makes the revoked device active again. -/
theorem late_unpause_revives_device :
    ¬Persists (poolStep (requestSystem DeviceOp.handler))
      (fun id p => RevokedRow id p.shared.db.devices) (requestIdle sampleConnected)
      (sampleLateUnpause ++ [.step 0 true]) := by
  intro h
  have hlast := h 20 sampleLateUnpause [.step 0 true] [] (by simp) (by decide)
  revert hlast
  decide

end Main

end Api
end ZeroVpn
