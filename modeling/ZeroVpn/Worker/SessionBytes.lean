import ZeroVpn.Db.UsageLedger
import ZeroVpn.Worker.ConnectionSessions

/-!
# The bytes of a connection session

`poll_once` of `crates/zerovpn-worker/src/wg_poller.rs` for one device: it accounts
the counters of the peer (`peer_usage_checkpoints::account`) and then opens or
closes the connection session of the device.

A session keeps the raw counters of its first and its last tick; "the session's
delivered bytes is `end - start`" (migration 18).  Accounting goes by differences
to a checkpoint, and starts again when the counters do.  The two agree as long as
the counters of an open session go on from the checkpoint.
-/

namespace ZeroVpn

open Library

namespace Worker

open Db Db.PeerUsageCheckpoints

/-- The device, with its user and server. -/
structure MeteredDevice where
  id : Uuid
  userId : Uuid
  serverId : Uuid
  deriving DecidableEq, Repr

/-- What a tick sees of the device; `sampledAt` is in nanoseconds. -/
structure Sighting where
  publicKey : String
  sourceGeneration : String
  endpoint : Option String
  latestHandshake : Int
  rxBytes : Nat
  txBytes : Nat
  sampledAt : Int
  /-- Whether `open` or `close`, if it is called, succeeds. -/
  written : Bool
  deriving DecidableEq, Repr

/-- The poller and the database. -/
structure Metered where
  poller : Poller
  db : Db

inductive MeterEvent where
  | poll (o : Sighting)
  /-- A tick without the device. -/
  | pollFailed
  | restart (now : Int) (swept : Bool)

namespace Sighting

variable (m : MeteredDevice) (o : Sighting)

/-- The arguments of `account`. -/
def observation : Observation where
  deviceId := m.id
  userId := m.userId
  serverId := m.serverId
  publicKey := o.publicKey
  sourceGeneration := o.sourceGeneration
  serverRx := o.rxBytes
  serverTx := o.txBytes
  sampledAt := o.sampledAt
  hasHandshake := decide (0 < o.latestHandshake)

/-- The peer of the snapshot, after `account` returned its deltas. -/
def peer (u : AccountedUsage) : PolledPeer where
  publicKey := o.publicKey
  endpoint := o.endpoint
  latestHandshake := o.latestHandshake
  rxBytes := o.rxBytes
  txBytes := o.txBytes
  accounted := some u.serverRxDelta.toNat
  written := o.written

def tick (u : AccountedUsage) : Tick where
  now := toTimestamp o.sampledAt
  pkIndex key := if key = o.publicKey then some (m.id, m.userId) else none
  peers := [o.peer u]

/-- The session that the tick opens. -/
def sessionStart : SessionStart where
  deviceId := m.id
  userId := m.userId
  peerEndpoint := o.endpoint
  rxBytes := o.txBytes
  txBytes := o.rxBytes
  startedAt := toTimestamp o.sampledAt

/-- The end of the session that the tick closes. -/
def sessionEnd : SessionEnd where
  endedAt := toTimestamp o.sampledAt
  peerEndpoint := o.endpoint
  rxBytes := some o.txBytes
  txBytes := some o.rxBytes

end Sighting

/-- The loop of `poll_once` for the device: counters that fit the database are accounted, and
then the session is looked at. -/
def meterStep (m : MeteredDevice) (s : Metered) : MeterEvent → Metered
  | .poll o =>
      if o.rxBytes < 2 ^ 63 ∧ o.txBytes < 2 ^ 63 then
        match account (o.observation m) s.db with
        | .error _ => s
        | .ok (u, db') => { poller := s.poller.pollOnce (o.tick m u), db := db' }
      else s
  | .pollFailed => s
  | .restart now swept =>
      { s with
        poller := .start (if swept then s.poller.sessions.closeAllOpen now else s.poller.sessions) }

/-- The bytes of every session that a tick of the run opens and another one closes are those that
were accounted after the one and up to the other. -/
def SessionsAgree (m : MeteredDevice) (s : Metered) (es : List MeterEvent) : Prop :=
  ∀ earlier o between c later,
    es = earlier ++ MeterEvent.poll o :: between ++ MeterEvent.poll c :: later →
    let before := runEvents (meterStep m) s earlier
    let opened := meterStep m before (MeterEvent.poll o)
    let last := runEvents (meterStep m) opened between
    let closed := meterStep m last (MeterEvent.poll c)
    ∀ row, opened.poller.sessions.rows = before.poller.sessions.rows ++ [row] →
      ∀ r ∈ last.poller.sessions.rows, r.id = row.id → r.endedAt = none →
      ∀ r' ∈ closed.poller.sessions.rows, r'.id = row.id → r'.endedAt ≠ none →
        ∃ rx tx, r'.rxBytesAtEnd = some rx ∧ r'.txBytesAtEnd = some tx ∧
          0 ≤ rx - r'.rxBytesAtStart ∧ 0 ≤ tx - r'.txBytesAtStart ∧
          (rx - r'.rxBytesAtStart, tx - r'.txBytesAtStart) =
            growth (lifetime m.id) opened.db closed.db

/-- The tick is newer than the checkpoint; and while a session of the device is open, the counters
go on from the checkpoint: the key and the source are the same, no counter went back, and there
is a handshake on record unless nothing moved. -/
def Steady (m : MeteredDevice) (s : Metered) : MeterEvent → Prop
  | .poll o => ∀ old, checkpointOf m.id s.db = some old →
      (o.observation m).stale old = false ∧
      (0 < s.poller.sessions.openCount m.id →
        (o.observation m).changedSource old = false ∧ (o.observation m).regressed old = false ∧
        (0 < o.latestHandshake ∨
          old.rawServerRxBytes = o.rxBytes ∧ old.rawServerTxBytes = o.txBytes))
  | _ => True

instance decidableSteady (m : MeteredDevice) (s : Metered) :
    (e : MeterEvent) → Decidable (Steady m s e)
  | .poll o => inferInstanceAs (Decidable (∀ old ∈ checkpointOf m.id s.db,
      (o.observation m).stale old = false ∧
      (0 < s.poller.sessions.openCount m.id →
        (o.observation m).changedSource old = false ∧ (o.observation m).regressed old = false ∧
        (0 < o.latestHandshake ∨
          old.rawServerRxBytes = o.rxBytes ∧ old.rawServerTxBytes = o.txBytes))))
  | .pollFailed => .isTrue trivial
  | .restart _ _ => .isTrue trivial

section Tables

variable {t : SessionTable} {device : Uuid}

/-- A row after a close: as it was, or ended. -/
theorem closeSession_rows {e : SessionEnd} {r' : ConnectionSession}
    (h : r' ∈ (t.closeSession device e).rows) : ∃ r ∈ t.rows, r' = r ∨ r' = r.finish e := by
  unfold SessionTable.closeSession at h
  split at h
  · exact ⟨r', h, .inl rfl⟩
  · obtain ⟨r, hr, hr'⟩ := List.mem_map.mp h
    refine ⟨r, hr, ?_⟩
    split at hr'
    · exact .inr hr'.symm
    · exact .inl hr'.symm

theorem closeAllOpen_rows {now : Int} {r' : ConnectionSession}
    (h : r' ∈ (t.closeAllOpen now).rows) :
    ∃ r ∈ t.rows, r' = r ∨ r' = { r with endedAt := some now } := by
  obtain ⟨r, hr, hr'⟩ := List.mem_map.mp h
  refine ⟨r, hr, ?_⟩
  split at hr'
  · exact .inr hr'.symm
  · exact .inl hr'.symm

theorem nextId_closeSession (e : SessionEnd) : (t.closeSession device e).nextId = t.nextId := by
  unfold SessionTable.closeSession
  split <;> rfl

/-- An open row counts. -/
theorem openCount_pos {r : ConnectionSession} (hr : r ∈ t.rows) (hdevice : r.deviceId = device)
    (hopen : r.endedAt = none) : 0 < t.openCount device := by
  refine List.countP_pos_iff.mpr ⟨r, hr, ?_⟩
  simp [ConnectionSession.isOpen, hdevice, hopen]

end Tables

section Step

variable {m : MeteredDevice} {s : Metered} {o : Sighting}

/-- What a tick can do: nothing, or account and leave, open or close a session. -/
theorem poll_cases (m : MeteredDevice) (s : Metered) (o : Sighting) :
    meterStep m s (.poll o) = s ∨
      ∃ u, account (o.observation m) s.db = .ok (u, (meterStep m s (.poll o)).db) ∧
        ((meterStep m s (.poll o)).poller.sessions = s.poller.sessions ∨
          (meterStep m s (.poll o)).poller.sessions =
            s.poller.sessions.openSession (o.sessionStart m) ∨
          (meterStep m s (.poll o)).poller.sessions =
            s.poller.sessions.closeSession m.id o.sessionEnd) := by
  simp only [meterStep]
  split
  · rename_i hfits
    cases haccount : account (o.observation m) s.db with
    | error e =>
        exact .inl rfl
    | ok r =>
        obtain ⟨u, db'⟩ := r
        refine .inr ⟨u, rfl, ?_⟩
        have hjudges : (o.tick m u).judges (o.peer u) =
            some (m.id, m.userId, u.serverRxDelta.toNat) := by
          have hindex : (o.tick m u).pkIndex (o.peer u).publicKey = some (m.id, m.userId) :=
            if_pos rfl
          unfold Tick.judges
          rw [hindex]
          exact if_pos hfits
        change (Poller.visit (o.tick m u) { s.poller with judged := fun _ => none }
            (o.peer u)).sessions = _ ∨
          (Poller.visit (o.tick m u) { s.poller with judged := fun _ => none }
            (o.peer u)).sessions = _ ∨
          (Poller.visit (o.tick m u) { s.poller with judged := fun _ => none }
            (o.peer u)).sessions = _
        simp only [Poller.visit, hjudges]
        split
        · unfold Poller.transition
          split
          · exact .inr (.inl rfl)
          · exact .inr (.inl rfl)
          · exact .inr (.inr rfl)
          · exact .inl rfl
        · exact .inl rfl
  · exact .inl rfl

/-- Accounting that goes on from the checkpoint. -/
theorem account_steady {a : Observation} {db db' : Db} {u : AccountedUsage} {old : Checkpoint}
    (h : account a db = .ok (u, db')) (hold : checkpointOf a.deviceId db = some old)
    (hnew : a.stale old = false) (hsource : a.changedSource old = false)
    (hregressed : a.regressed old = false)
    (hhandshake : a.hasHandshake = true ∨
      old.rawServerRxBytes = a.serverRx ∧ old.rawServerTxBytes = a.serverTx) :
    growth (lifetime a.deviceId) db db' =
      (a.serverTx - old.rawServerTxBytes, a.serverRx - old.rawServerRxBytes) := by
  obtain ⟨_, hdelta, _, d, hd, hid⟩ := account_eq_ok h
  have hdeltas : a.deltaIn db =
      ⟨a.serverRx - old.rawServerRxBytes, a.serverTx - old.rawServerTxBytes⟩ := by
    unfold Observation.deltaIn
    simp only [hold, Observation.delta, hnew, hsource, hregressed, Bool.or_false]
    rcases hhandshake with hhandshake | ⟨hrx, htx⟩
    · simp [hhandshake]
    · rw [hrx, htx]
      split <;> simp
  rw [hdeltas] at hdelta
  have hrx : u.serverRxDelta = a.serverRx - old.rawServerRxBytes :=
    congrArg Delta.serverRx hdelta
  have htx : u.serverTxDelta = a.serverTx - old.rawServerTxBytes :=
    congrArg Delta.serverTx hdelta
  have hgrowth := devices_growth (q := fun r => r.id == a.deviceId) h (fun _ => rfl) hd hid
  simp only [growth, lifetime, hgrowth.1, hgrowth.2, hid, beq_self_eq_true, if_true, hrx, htx,
    add_sub_cancel_left]

/-- The checkpoint after a tick that is newer than the one before. -/
theorem checkpoint_records {u : AccountedUsage} {db db' : Db}
    (h : account (o.observation m) db = .ok (u, db'))
    (hnew : ∀ old, checkpointOf m.id db = some old → (o.observation m).stale old = false) :
    ∃ ck, checkpointOf m.id db' = some ck ∧ Records ck (o.observation m) := by
  have hafter := checkpointOf_account (d := m.id) h
  rw [if_pos (show (o.observation m).deviceId = m.id from rfl)] at hafter
  cases hold : checkpointOf m.id db with
  | none =>
      rw [hold] at hafter
      exact ⟨_, hafter, records_baseline _⟩
  | some old =>
      rw [hold] at hafter
      simp only [hnew old hold, Bool.false_eq_true, if_false] at hafter
      exact ⟨_, hafter, records_successor _ old⟩

end Step

section Run

variable {m : MeteredDevice} {row : ConnectionSession} {origin : Db} {s : Metered}

/-- From the counters of the session's start to those of the checkpoint is what was accounted
since. -/
def Counted (m : MeteredDevice) (row : ConnectionSession) (origin db : Db) : Prop :=
  ∃ ck, checkpointOf m.id db = some ck ∧
    0 ≤ ck.rawServerTxBytes - row.rxBytesAtStart ∧ 0 ≤ ck.rawServerRxBytes - row.txBytesAtStart ∧
    (ck.rawServerTxBytes - row.rxBytesAtStart, ck.rawServerRxBytes - row.txBytesAtStart) =
      growth (lifetime m.id) origin db

/-- While the session is open, its row is as it was opened and the checkpoint counts it. -/
structure Tracks (m : MeteredDevice) (row : ConnectionSession) (origin : Db) (s : Metered) :
    Prop where
  issued : row.id < s.poller.sessions.nextId
  counted : ∀ r ∈ s.poller.sessions.rows, r.id = row.id → r.endedAt = none →
    r.deviceId = m.id ∧ r.rxBytesAtStart = row.rxBytesAtStart ∧
      r.txBytesAtStart = row.txBytesAtStart ∧ Counted m row origin s.db

/-- An accounted tick of an open session: its counters are those of the checkpoint. -/
theorem counted_account {o : Sighting} {u : AccountedUsage} {db' : Db}
    (hcounted : Counted m row origin s.db) (hopen : 0 < s.poller.sessions.openCount m.id)
    (hsteady : Steady m s (.poll o)) (h : account (o.observation m) s.db = .ok (u, db')) :
    Counted m row origin db' ∧
      0 ≤ (o.txBytes : Int) - row.rxBytesAtStart ∧ 0 ≤ (o.rxBytes : Int) - row.txBytesAtStart ∧
      ((o.txBytes : Int) - row.rxBytesAtStart, (o.rxBytes : Int) - row.txBytesAtStart) =
        growth (lifetime m.id) origin db' := by
  obtain ⟨old, hold, hrx, htx, hsum⟩ := hcounted
  obtain ⟨hnew, hgoes⟩ := hsteady old hold
  obtain ⟨hsource, hregressed, hhandshake⟩ := hgoes hopen
  have hdelta := account_steady h hold hnew hsource hregressed
    (hhandshake.imp_left fun hpos => decide_eq_true hpos)
  obtain ⟨ck, hck, hrecords⟩ := checkpoint_records h fun old' hold' => by
    rw [hold] at hold'
    cases hold'
    exact hnew
  have hckrx : ck.rawServerRxBytes = o.rxBytes := hrecords.serverRx
  have hcktx : ck.rawServerTxBytes = o.txBytes := hrecords.serverTx
  unfold Observation.regressed at hregressed
  simp only [Bool.or_eq_false_iff, decide_eq_false_iff_not, Int.not_lt] at hregressed
  have hoverrx : old.rawServerRxBytes ≤ o.rxBytes := hregressed.1
  have hovertx : old.rawServerTxBytes ≤ o.txBytes := hregressed.2
  have hgrowth : growth (lifetime m.id) origin db' =
      ((o.txBytes : Int) - row.rxBytesAtStart, (o.rxBytes : Int) - row.txBytesAtStart) := by
    rw [growth_trans (lifetime m.id) origin s.db db', ← hsum]
    change _ + growth (lifetime (o.observation m).deviceId) s.db db' = _
    rw [hdelta]
    change (_ + ((o.txBytes : Int) - _), _ + ((o.rxBytes : Int) - _)) = _
    rw [Prod.mk.injEq]
    constructor
    · omega
    · omega
  refine ⟨⟨ck, hck, by omega, by omega, ?_⟩, by omega, by omega, hgrowth.symm⟩
  rw [hckrx, hcktx, hgrowth]

/-- The tick that opens a session. -/
theorem tracks_opened {o : Sighting} (hsteady : Steady m s (.poll o))
    (hrow : (meterStep m s (.poll o)).poller.sessions.rows = s.poller.sessions.rows ++ [row]) :
    Tracks m row (meterStep m s (.poll o)).db (meterStep m s (.poll o)) := by
  have hlonger : ∀ t : SessionTable, t.rows.length = s.poller.sessions.rows.length →
      (meterStep m s (.poll o)).poller.sessions ≠ t := by
    intro t ht hsame
    have hlength := congrArg List.length hrow
    rw [hsame, ht, List.length_append] at hlength
    simp at hlength
  rcases poll_cases m s o with hsame | ⟨u, haccount, hsame | hopened | hclosed⟩
  · exact absurd (by rw [hsame]) (hlonger _ rfl)
  · exact absurd hsame (hlonger _ rfl)
  · have hlast := hrow
    rw [hopened] at hlast
    obtain rfl := List.singleton_inj.mp (List.append_cancel_left hlast)
    obtain ⟨ck, hck, hrecords⟩ := checkpoint_records haccount fun old hold => (hsteady old hold).1
    have hckrx : ck.rawServerRxBytes = o.rxBytes := hrecords.serverRx
    have hcktx : ck.rawServerTxBytes = o.txBytes := hrecords.serverTx
    constructor
    · rw [hopened]
      exact Nat.lt_succ_self _
    · intro r hr hid _
      rw [hopened] at hr
      rcases List.mem_append.mp hr with hold | hnew
      · have hlt := s.poller.sessions.fresh r hold
        rw [hid] at hlt
        exact absurd hlt (Nat.lt_irrefl _)
      · obtain rfl := List.mem_singleton.mp hnew
        refine ⟨rfl, rfl, rfl, ck, hck, ?_, ?_, ?_⟩
        · simp [hcktx, Sighting.sessionStart]
        · simp [hckrx, Sighting.sessionStart]
        · simp [hcktx, hckrx, Sighting.sessionStart, growth]
  · refine absurd hclosed (hlonger _ ?_)
    unfold SessionTable.closeSession
    split
    · rfl
    · exact List.length_map _

/-- A step keeps the count of an open session. -/
theorem tracks_step (h : Tracks m row origin s) {e : MeterEvent} (hsteady : Steady m s e) :
    Tracks m row origin (meterStep m s e) := by
  cases e with
  | pollFailed =>
      exact h
  | restart now swept =>
      cases swept with
      | false =>
          exact ⟨h.issued, h.counted⟩
      | true =>
          refine ⟨h.issued, fun r' hr' hid hopen => ?_⟩
          obtain ⟨r, hr, rfl | rfl⟩ := closeAllOpen_rows hr'
          · exact h.counted r' hr hid hopen
          · cases hopen
  | poll o =>
      rcases poll_cases m s o with hsame | ⟨u, haccount, hsessions⟩
      · rw [hsame]
        exact h
      · -- a row that is open after the tick was so before it
        have hopenBefore : ∀ r' ∈ (meterStep m s (.poll o)).poller.sessions.rows,
            r'.id = row.id → r'.endedAt = none → r' ∈ s.poller.sessions.rows := by
          intro r' hr' hid hopen
          rcases hsessions with hkept | hopened | hclosed
          · rwa [hkept] at hr'
          · rw [hopened] at hr'
            rcases List.mem_append.mp hr' with hold | hnew
            · exact hold
            · obtain rfl := List.mem_singleton.mp hnew
              exact absurd hid (Nat.ne_of_gt h.issued)
          · rw [hclosed] at hr'
            obtain ⟨r, hr, rfl | rfl⟩ := closeSession_rows hr'
            · exact hr
            · cases hopen
        constructor
        · rcases hsessions with hkept | hopened | hclosed
          · rw [hkept]
            exact h.issued
          · rw [hopened]
            exact Nat.lt_succ_of_lt h.issued
          · rw [hclosed, nextId_closeSession]
            exact h.issued
        · intro r hr hid hopen
          have hbefore := hopenBefore r hr hid hopen
          obtain ⟨hdevice, hrx, htx, hcounted⟩ := h.counted r hbefore hid hopen
          exact ⟨hdevice, hrx, htx, (counted_account hcounted
            (openCount_pos hbefore hdevice hopen) hsteady haccount).1⟩

/-- A run keeps the count of an open session. -/
theorem tracks_run {es : List MeterEvent} (h : Tracks m row origin s)
    (hes : Along (meterStep m) (Steady m) s es) :
    Tracks m row origin (runEvents (meterStep m) s es) := by
  induction es generalizing s with
  | nil =>
      exact h
  | cons e es ih =>
      exact ih (tracks_step h hes.1) hes.2

/-- The tick that closes the session stores its own counters. -/
theorem tracks_closed (h : Tracks m row origin s) {c : Sighting} (hsteady : Steady m s (.poll c))
    {r r' : ConnectionSession} (hr : r ∈ s.poller.sessions.rows) (hid : r.id = row.id)
    (hopen : r.endedAt = none) (hr' : r' ∈ (meterStep m s (.poll c)).poller.sessions.rows)
    (hid' : r'.id = row.id) (hended : r'.endedAt ≠ none) :
    ∃ rx tx, r'.rxBytesAtEnd = some rx ∧ r'.txBytesAtEnd = some tx ∧
      0 ≤ rx - r'.rxBytesAtStart ∧ 0 ≤ tx - r'.txBytesAtStart ∧
      (rx - r'.rxBytesAtStart, tx - r'.txBytesAtStart) =
        growth (lifetime m.id) origin (meterStep m s (.poll c)).db := by
  have hopenRow : ∀ r₀ ∈ s.poller.sessions.rows, r₀.id = row.id → r₀ = r := fun r₀ hr₀ hid₀ =>
    List.inj_on_of_nodup_map s.poller.sessions.unique hr₀ hr (hid₀.trans hid.symm)
  have hstays : r' ∉ s.poller.sessions.rows := by
    intro hmem
    rw [hopenRow r' hmem hid'] at hended
    exact hended hopen
  obtain ⟨hdevice, hrx, htx, hcounted⟩ := h.counted r hr hid hopen
  rcases poll_cases m s c with hsame | ⟨u, haccount, hkept | hopened | hclosed⟩
  · rw [hsame] at hr'
    exact absurd hr' hstays
  · rw [hkept] at hr'
    exact absurd hr' hstays
  · rw [hopened] at hr'
    rcases List.mem_append.mp hr' with hold | hnew
    · exact absurd hold hstays
    · obtain rfl := List.mem_singleton.mp hnew
      exact absurd rfl hended
  · rw [hclosed] at hr'
    obtain ⟨r₀, hr₀, rfl | rfl⟩ := closeSession_rows hr'
    · exact absurd hr₀ hstays
    · obtain rfl := hopenRow r₀ hr₀ hid'
      obtain ⟨_, hnonnegRx, hnonnegTx, hsum⟩ := counted_account hcounted
        (openCount_pos hr hdevice hopen) hsteady haccount
      refine ⟨c.txBytes, c.rxBytes, rfl, rfl, ?_⟩
      change 0 ≤ _ - r₀.rxBytesAtStart ∧ 0 ≤ _ - r₀.txBytesAtStart ∧
        (_ - r₀.rxBytesAtStart, _ - r₀.txBytesAtStart) = _
      rw [hrx, htx]
      exact ⟨hnonnegRx, hnonnegTx, hsum⟩

/--
In a run in which every tick is newer than the checkpoint, and the counters of an
open session go on from it, the bytes of every session that a tick closes are
those that were accounted.
-/
theorem session_bytes_agree (m : MeteredDevice) (s : Metered) (es : List MeterEvent)
    (hes : Along (meterStep m) (Steady m) s es) : SessionsAgree m s es := by
  rintro earlier o between c later rfl before opened last closed row hrow r hr hid hopen
    r' hr' hid' hended
  rw [List.append_assoc, List.cons_append, along_append] at hes
  obtain ⟨_, hopening, hrest⟩ := hes
  rw [along_append] at hrest
  obtain ⟨hbetween, hclosing, _⟩ := hrest
  exact tracks_closed (tracks_run (tracks_opened hopening hrow) hbetween) hclosing hr hid hopen
    hr' hid' hended

/-- The device of `ledgerDb`. -/
def meteredDevice : MeteredDevice := ⟨20, 2, 10⟩

def meteredStart : Metered := ⟨.start sampleTable, ledgerDb⟩

/-- A tick some seconds after 2026-06-01; the last handshake is of 00:00. -/
def sighting (seconds : Int) (counter : Nat) : Sighting where
  publicKey := "key"
  sourceGeneration := "wg0"
  endpoint := none
  latestHandshake := 1780272000
  rxBytes := counter
  txBytes := counter
  sampledAt := (1780272000 + seconds) * 1000000000
  written := true

/-- The device is online, sends 200 bytes and goes silent. -/
theorem session_bytes_agree_sample :
    let es := [.poll (sighting 5 100), .poll (sighting 10 300), .poll (sighting 300 300)]
    SessionsAgree meteredDevice meteredStart es ∧
      (runEvents (meterStep meteredDevice) meteredStart es).poller.sessions.rows.map
          (fun r => (r.rxBytesAtStart, r.rxBytesAtEnd)) = [(100, some 300)] ∧
      lifetime 20 (runEvents (meterStep meteredDevice) meteredStart es).db = (200, 200) := by
  refine ⟨session_bytes_agree _ _ _ ?_, ?_, ?_⟩
  · decide
  · decide +kernel
  · decide

/-- The session that starts at a counter of 1000. -/
def resetSession : ConnectionSession where
  id := 1
  deviceId := 20
  userId := 2
  startedAt := 1780272005 * 1000000
  endedAt := none
  peerEndpointAtStart := none
  peerEndpointAtEnd := none
  rxBytesAtStart := 1000
  txBytesAtStart := 1000
  rxBytesAtEnd := none
  txBytesAtEnd := none

/-- The peer is created again while the device is online: the session ends with fewer bytes than
it began with, and 50 bytes are accounted. -/
theorem session_over_reset_is_negative :
    let es := [.poll (sighting 5 1000), .poll (sighting 10 50), .poll (sighting 300 50)]
    (runEvents (meterStep meteredDevice) meteredStart es).poller.sessions.rows.map
        (fun r => (r.rxBytesAtStart, r.rxBytesAtEnd)) = [(1000, some 50)] ∧
      lifetime 20 (runEvents (meterStep meteredDevice) meteredStart es).db = (50, 50) ∧
      ¬ SessionsAgree meteredDevice meteredStart es := by
  intro es
  refine ⟨by decide +kernel, by decide +kernel, fun h => ?_⟩
  have hagree := h [] (sighting 5 1000) [.poll (sighting 10 50)] (sighting 300 50) [] rfl
    resetSession (by decide) resetSession (by decide) rfl rfl
    (resetSession.finish (sighting 300 50).sessionEnd) (by decide +kernel) rfl (by decide)
  obtain ⟨rx, tx, hrx, _, hnonneg, _⟩ := hagree
  cases hrx
  exact absurd hnonneg (by decide)

end Run

end Worker
end ZeroVpn
