import ZeroVpn.Api.DeviceRequests
import ZeroVpn.Api.TunnelAccess
import ZeroVpn.Db.UsageLedger

/-!
# Manual pauses and the quota sweep

The sweep resumes paused devices whose `auto_paused` flag is set, so that a
manual pause stays put.  Only the two marks of the sweep write the flag: an
owner who unpauses a device that the sweep paused leaves it set, and the next
manual pause of that device looks like one of the sweep.

`manual_pauses_hold` is about runs of requests, sweeps and accounted usage in
which no manual pause meets such a flag.
-/

namespace ZeroVpn

open Library

namespace Api

open Db (Uuid Device DeviceStatus)
open Db.PeerUsageCheckpoints (Observation account sampleObservation)

/-- A call of the API, or an observation that the worker accounts. -/
inductive QuotaEvent where
  | request (e : PoolEvent DeviceOp Unit)
  | usage (a : Observation)

/-- The database after the worker's transaction; an error changes nothing. -/
def usageDb (a : Observation) (db : Db) : Db :=
  match account a db with
  | .ok (_, db') => db'
  | .error _ => db

def quotaStep (p : RequestPool DeviceOp) : QuotaEvent → RequestPool DeviceOp
  | .request e => poolStep (requestSystem DeviceOp.handler) p e
  | .usage a => { p with shared := { p.shared with db := usageDb a p.shared.db } }

/-- The request whose call an event runs. -/
def QuotaEvent.madeBy (p : RequestPool DeviceOp) : QuotaEvent → Option DeviceOp
  | request e => Api.madeBy p e
  | usage _ => none

/-- The pause routes of the owner and of the administrator. -/
def DeviceOp.isManualPause (op : DeviceOp) : Bool :=
  match op.1 with
  | .pause .. | .pauseDevice .. => true
  | _ => false

theorem DeviceOp.not_sweep_of_manualPause {op : DeviceOp} (h : op.isManualPause = true) :
    op.isSweep = false := by
  obtain ⟨op, hop⟩ := op
  cases op with
  | quotaSweep now =>
      cases h
  | _ =>
      rfl

/-- The device is stored as paused. -/
def PausedRow (id : Uuid) (devices : List Device) : Prop :=
  ∃ d ∈ devices, d.id = id ∧ d.status = .paused

instance (id : Uuid) (devices : List Device) : Decidable (PausedRow id devices) :=
  inferInstanceAs (Decidable (∃ d ∈ devices, _))

/-- The device is paused. -/
def Paused (id : Uuid) (p : RequestPool DeviceOp) : Prop := PausedRow id p.shared.db.devices

instance (id : Uuid) (p : RequestPool DeviceOp) : Decidable (Paused id p) :=
  inferInstanceAs (Decidable (PausedRow id _))

/-- A manual pause makes a device paused. -/
def ManualPause (id : Uuid) (p : RequestPool DeviceOp) (e : QuotaEvent) : Prop :=
  (e.madeBy p).any DeviceOp.isManualPause = true ∧ ¬Paused id p ∧ Paused id (quotaStep p e)

instance (id : Uuid) (p : RequestPool DeviceOp) (e : QuotaEvent) :
    Decidable (ManualPause id p e) :=
  inferInstanceAs (Decidable (_ ∧ _ ∧ _))

/-- The sweep makes a call. -/
def sweepCall (p : RequestPool DeviceOp) (e : QuotaEvent) : Bool :=
  (e.madeBy p).any DeviceOp.isSweep

/-- A device that became paused by a manual pause and is paused since then is
still paused after every call of a sweep. -/
def ManualPausesHold (p₀ : RequestPool DeviceOp) (es : List QuotaEvent) : Prop :=
  ∀ id es₁ e es₂ e' es₃, es = es₁ ++ e :: (es₂ ++ e' :: es₃) →
    ManualPause id (runEvents quotaStep p₀ es₁) e →
    Always quotaStep (Paused id) (runEvents quotaStep p₀ (es₁ ++ [e])) es₂ →
    sweepCall (runEvents quotaStep p₀ (es₁ ++ e :: es₂)) e' = true →
    Paused id (runEvents quotaStep p₀ (es₁ ++ e :: es₂ ++ [e']))

/-- The write pauses a device whose flag is still set. -/
def DbCall.pausesFlagged : DbCall → Device → Bool
  | setStatus userId deviceId .paused, d =>
      Db.Devices.owned userId deviceId d && d.status != .paused && d.autoPaused
  | _, _ => false

/-- The event is a manual pause of a device whose flag is still set. -/
def pausesFlaggedDevice (p : RequestPool DeviceOp) : QuotaEvent → Bool
  | .request e =>
      match acceptedCall p e with
      | some q => p.shared.db.devices.any q.pausesFlagged
      | none => false
  | .usage _ => false

section Rows

/-- The device is paused and its flag is not set. -/
def UnflaggedRow (id : Uuid) (devices : List Device) : Prop :=
  ∃ d ∈ devices, d.id = id ∧ d.status = .paused ∧ d.autoPaused = false

variable {q : DbCall} {d : Device} {id : Uuid} {devices : List Device}

/-- Nothing sets the flag of a paused device. -/
theorem deviceAfter_autoPaused_of_paused (q : DbCall) (hpaused : d.status = .paused)
    (hflag : d.autoPaused = false) : (q.deviceAfter d).autoPaused = false := by
  cases q with
  | setPrivateKeyEncrypted _ _ _ | setStatus _ _ _ | updatePublicKey _ _ _ | setQuota _ _
  | softDelete _ _ | resetDueDevices _ _ =>
      simp only [DbCall.deviceAfter]
      split
      · exact hflag
      · exact hflag
  | markAutoPaused id | markResumed id =>
      simp [DbCall.deviceAfter, hpaused, hflag]
  | _ =>
      exact hflag

/-- No request sets the flag. -/
theorem deviceAfter_autoPaused_of_request (hq : DeviceWork false (.sql q))
    (hflag : d.autoPaused = false) : (q.deviceAfter d).autoPaused = false := by
  cases q with
  | setPrivateKeyEncrypted _ _ _ | setStatus _ _ _ | updatePublicKey _ _ _ | setQuota _ _
  | softDelete _ _ | resetDueDevices _ _ =>
      simp only [DbCall.deviceAfter]
      split
      · exact hflag
      · exact hflag
  | markAutoPaused id | markResumed id =>
      cases hq
  | _ =>
      exact hflag

/-- The sweep leaves a paused device without the flag alone. -/
theorem deviceAfter_paused_of_sweep (hq : DeviceWork true (.sql q)) (hpaused : d.status = .paused)
    (hflag : d.autoPaused = false) : (q.deviceAfter d).status = .paused := by
  cases q with
  | setPrivateKeyEncrypted _ _ _ | updatePublicKey _ _ _ | setQuota _ _ | resetDueDevices _ _ =>
      simp only [DbCall.deviceAfter]
      split
      · exact hpaused
      · exact hpaused
  | markAutoPaused id | markResumed id =>
      simp [DbCall.deviceAfter, hpaused, hflag]
  | setStatus _ _ _ | softDelete _ _ =>
      cases hq
  | _ =>
      exact hpaused

/-- A request pauses a device by `set_status`, and its flag tells whether that
is a pause the condition excludes. -/
theorem autoPaused_of_pauses (hq : DeviceWork false (.sql q)) (hbefore : d.status ≠ .paused)
    (hafter : (q.deviceAfter d).status = .paused) (hcond : q.pausesFlagged d = false) :
    d.autoPaused = false := by
  cases q with
  | setStatus userId deviceId status =>
      simp only [DbCall.deviceAfter] at hafter
      split at hafter
      · rename_i howned
        cases hafter
        simpa [DbCall.pausesFlagged, howned, hbefore] using hcond
      · exact absurd hafter hbefore
  | setPrivateKeyEncrypted _ _ _ | updatePublicKey _ _ _ | setQuota _ _ | resetDueDevices _ _ =>
      simp only [DbCall.deviceAfter] at hafter
      split at hafter
      · exact absurd hafter hbefore
      · exact absurd hafter hbefore
  | markAutoPaused id | markResumed id | softDelete _ _ =>
      cases hq
  | _ =>
      exact absurd hafter hbefore

/-- An accounted observation changes neither a status nor a flag. -/
theorem usageDb_rows (a : Observation) (db : Db) {P : DeviceStatus → Bool → Prop} {id : Uuid} :
    (∃ d ∈ (usageDb a db).devices, d.id = id ∧ P d.status d.autoPaused) ↔
      ∃ d ∈ db.devices, d.id = id ∧ P d.status d.autoPaused := by
  unfold usageDb
  split
  · rename_i u db' haccount
    obtain ⟨htables, _⟩ := Db.PeerUsageCheckpoints.account_eq_ok haccount
    rw [htables, Db.PeerUsageCheckpoints.booked_devices]
    constructor
    · rintro ⟨d', hd', hfields⟩
      obtain ⟨d, hd, rfl⟩ := mem_updateWhere.mp hd'
      refine ⟨d, hd, ?_⟩
      split at hfields
      · exact hfields
      · exact hfields
    · rintro ⟨d, hd, hfields⟩
      refine ⟨_, mem_updateWhere.mpr ⟨d, hd, rfl⟩, ?_⟩
      split
      · exact hfields
      · exact hfields
  · exact Iff.rfl

end Rows

section Steps

variable {p : RequestPool DeviceOp} {e : QuotaEvent} {id : Uuid}

/-- The requests keep to their calls, whatever the worker accounts. -/
theorem deviceInv_quotaStep (p : RequestPool DeviceOp) (e : QuotaEvent) (h : DeviceInv p) :
    DeviceInv (quotaStep p e) := by
  cases e with
  | request e =>
      exact deviceInv_step p e h
  | usage a =>
      exact poolInv_env h fun _ _ => trivial

/-- A device is paused without the flag, and the requests keep to their calls. -/
def Unflagged (id : Uuid) (p : RequestPool DeviceOp) : Prop :=
  DeviceInv p ∧ UnflaggedRow id p.shared.db.devices

/-- The rows before and after an event that runs a statement. -/
theorem row_after {e : PoolEvent DeviceOp Unit} (h : DeviceInv p) {q : DbCall}
    (hcall : acceptedCall p e = some q) {d : Device} (hd : d ∈ p.shared.db.devices) :
    q.deviceAfter d ∈ (quotaStep p (.request e)).shared.db.devices ∧
      ∀ d' ∈ (quotaStep p (.request e)).shared.db.devices, d'.id = d.id →
        d' = q.deviceAfter d := by
  have hrows := request_rows DeviceOp.handler p e
  rw [hcall] at hrows
  obtain ⟨op, _, hwork⟩ := acceptedCall_of_inv h hcall
  have hmem : q.deviceAfter d ∈ (quotaStep p (.request e)).shared.db.devices := by
    show _ ∈ (poolStep (requestSystem DeviceOp.handler) p e).shared.db.devices
    rw [hrows.2]
    exact DbCall.mem_devicesAfter (fun _ => not_hardDelete_of_work hwork) hd
  refine ⟨hmem, ?_⟩
  intro d' hd' hid
  exact Db.deviceId_unique _ hd' hmem (by rw [hid, DbCall.deviceAfter_id])

/-- A device that stays paused stays without the flag. -/
theorem unflagged_step (p : RequestPool DeviceOp) (e : QuotaEvent) (h : Unflagged id p)
    (hpaused : Paused id (quotaStep p e)) : Unflagged id (quotaStep p e) := by
  refine ⟨deviceInv_quotaStep p e h.1, ?_⟩
  obtain ⟨hinv, d, hd, rfl, hstatus, hflag⟩ := h
  cases e with
  | usage a =>
      exact (usageDb_rows a p.shared.db
        (P := fun status flag => status = .paused ∧ flag = false)).mpr
          ⟨d, hd, rfl, hstatus, hflag⟩
  | request e =>
      cases hcall : acceptedCall p e with
      | none =>
          have hrows := request_rows DeviceOp.handler p e
          rw [hcall] at hrows
          have hsame : (quotaStep p (.request e)).shared.db = p.shared.db := hrows
          rw [hsame]
          exact ⟨d, hd, rfl, hstatus, hflag⟩
      | some q =>
          obtain ⟨hmem, honly⟩ := row_after hinv hcall hd
          obtain ⟨d', hd', hid', hstatus'⟩ := hpaused
          rw [honly d' hd' hid'] at hstatus'
          exact ⟨_, hmem, DbCall.deviceAfter_id q d, hstatus',
            deviceAfter_autoPaused_of_paused q hstatus hflag⟩

/-- The sweep keeps a device paused that has no flag. -/
theorem paused_sweep (h : Unflagged id p) (hsweep : sweepCall p e = true) : Paused id (quotaStep p e) := by
  obtain ⟨hinv, d, hd, rfl, hstatus, hflag⟩ := h
  obtain ⟨op, hmade, hop⟩ := (Option.any_eq_true _ _).mp hsweep
  cases e with
  | usage a =>
      cases hmade
  | request e =>
      cases hcall : acceptedCall p e with
      | none =>
          have hrows := request_rows DeviceOp.handler p e
          rw [hcall] at hrows
          have hsame : (quotaStep p (.request e)).shared.db = p.shared.db := hrows
          unfold Paused
          rw [hsame]
          exact ⟨d, hd, rfl, hstatus⟩
      | some q =>
          obtain ⟨op', hmade', hwork⟩ := acceptedCall_of_inv hinv hcall
          have hsame : op' = op := Option.some.inj (hmade'.symm.trans hmade)
          rw [hsame, hop] at hwork
          exact ⟨_, (row_after hinv hcall hd).1, DbCall.deviceAfter_id q d,
            deviceAfter_paused_of_sweep hwork hstatus hflag⟩

/-- A manual pause that meets no flag leaves none. -/
theorem unflagged_manualPause (hinv : DeviceInv p) (hpause : ManualPause id p e)
    (hcond : pausesFlaggedDevice p e = false) : Unflagged id (quotaStep p e) := by
  refine ⟨deviceInv_quotaStep p e hinv, ?_⟩
  obtain ⟨hmanual, hbefore, d', hd', hid', hstatus'⟩ := hpause
  obtain ⟨op, hmade, hop⟩ := (Option.any_eq_true _ _).mp hmanual
  cases e with
  | usage a =>
      cases hmade
  | request e =>
      have hrows := request_rows DeviceOp.handler p e
      cases hcall : acceptedCall p e with
      | none =>
          rw [hcall] at hrows
          have hsame : (quotaStep p (.request e)).shared.db = p.shared.db := hrows
          rw [hsame] at hd'
          exact absurd ⟨d', hd', hid', hstatus'⟩ hbefore
      | some q =>
          rw [hcall] at hrows
          obtain ⟨op', hmade', hwork⟩ := acceptedCall_of_inv hinv hcall
          have hsame : op' = op := Option.some.inj (hmade'.symm.trans hmade)
          have hrequest : op.isSweep = false := DeviceOp.not_sweep_of_manualPause hop
          rw [hsame, hrequest] at hwork
          refine ⟨d', hd', hid', hstatus', ?_⟩
          change d' ∈ (poolStep (requestSystem DeviceOp.handler) p e).shared.db.devices at hd'
          rw [hrows.2] at hd'
          rcases DbCall.of_mem_devicesAfter hd' with ⟨d, hd, rfl⟩ | ⟨id', new, _, rfl⟩
          · rw [DbCall.deviceAfter_id] at hid'
            have hnot : d.status ≠ .paused := fun hd₀ => hbefore ⟨d, hd, hid', hd₀⟩
            simp only [pausesFlaggedDevice, hcall, List.any_eq_false, Bool.not_eq_true] at hcond
            exact deviceAfter_autoPaused_of_request hwork
              (autoPaused_of_pauses hwork hnot hstatus' (hcond d hd))
          · cases hstatus'

end Steps

section Main

/--
In every run in which no manual pause meets a device whose `auto_paused` flag is
still set, the sweep leaves manually paused devices paused.
-/
theorem manual_pauses_hold (s : Sys) (es : List QuotaEvent)
    (hes : Along quotaStep (fun p e => pausesFlaggedDevice p e = false) (requestIdle s) es) :
    ManualPausesHold (requestIdle s) es := by
  rintro id es₁ e es₂ e' es₃ rfl hpause hpaused hsweep
  have hinv : DeviceInv (runEvents quotaStep (requestIdle s) es₁) :=
    (always_of_inv DeviceInv deviceInv_quotaStep (fun _ h => h) (deviceInv_idle s) es₁).last
  have hcond := (along_append.mp hes).2.1
  have hunflagged : Unflagged id (runEvents quotaStep (requestIdle s) (es₁ ++ [e])) := by
    rw [runEvents_append]
    exact unflagged_manualPause hinv hpause hcond
  have hlast := holds_while unflagged_step hunflagged hpaused
  rw [← runEvents_append, List.append_assoc, List.singleton_append] at hlast
  rw [runEvents_append]
  exact paused_sweep hlast hsweep

/-- The user 2 with a connected device of 10 bytes a month. -/
def sampleCapped : Sys :=
  runEvents complete (Sys.off sampleDb)
    [.restart sampleConfig, .create 2 ⟨"laptop", none, some 10⟩ ⟨20, "private", sampleKey⟩]

/-- A request that runs alone for some calls. -/
def sampleCalls (i : Nat) (op : DeviceOp) (calls : Nat) : List QuotaEvent :=
  .request (.spawn op) :: List.replicate calls (.request (.step i true))

/-- A device without the flag is paused and a sweep runs. -/
theorem manual_pauses_hold_sample :
    ManualPausesHold (requestIdle sampleCapped)
      (QuotaEvent.usage (sampleObservation 1000 0) :: sampleCalls 0 ⟨.pause 2 20, rfl⟩ 5 ++
        sampleCalls 1 ⟨.quotaSweep (sampleObservation 2000 0).sampledAt, rfl⟩ 4) :=
  manual_pauses_hold sampleCapped _ (by decide)

/-- The device passes its cap, the sweep pauses it, the owner unpauses it and
starts to pause it. -/
def sampleFlagged : List QuotaEvent :=
  [QuotaEvent.usage (sampleObservation 1000 0), QuotaEvent.usage (sampleObservation 2000 20)] ++
    sampleCalls 0 ⟨.quotaSweep (sampleObservation 3000 0).sampledAt, rfl⟩ 6 ++
    sampleCalls 1 ⟨.unpause 2 20, Eq.refl true⟩ 6 ++ sampleCalls 2 ⟨.pause 2 20, rfl⟩ 2

/-- A sweep in July, up to its mark. -/
def sampleNextMonth : List QuotaEvent :=
  List.replicate 2 (QuotaEvent.request (PoolEvent.step 2 true)) ++
    sampleCalls 3 ⟨.quotaSweep (sampleObservation (31 * Db.nanosPerDay) 0).sampledAt, rfl⟩ 3

/-- The owner's pause is undone when the month is over. -/
theorem sweep_resumes_manual_pause :
    ¬ManualPausesHold (requestIdle sampleCapped)
      (sampleFlagged ++ QuotaEvent.request (PoolEvent.step 2 true) ::
        (sampleNextMonth ++ [QuotaEvent.request (PoolEvent.step 3 true)])) := by
  intro h
  have hpaused := h 20 sampleFlagged (QuotaEvent.request (PoolEvent.step 2 true)) sampleNextMonth
    (.request (.step 3 true)) [] rfl (by decide) (by decide)
    (by decide)
  revert hpaused
  decide

end Main

end Api
end ZeroVpn
