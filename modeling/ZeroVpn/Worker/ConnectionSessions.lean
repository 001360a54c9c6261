import Mathlib.Data.List.Nodup
import ZeroVpn.Db.Schema
import ZeroVpn.Library.Machine

/-!
# Connection sessions

`open`, `close` and `close_all_open` of `repos/connection_sessions.rs`, as
`poll_once` of `crates/zerovpn-worker/src/wg_poller.rs` calls them when a device
comes online or goes offline, and the sweep at the start of the worker.

The poller compares what it judges with what it judged before, and writes a row
only when the two differ.  It remembers its judgement whether or not the write
succeeded, and it judges the peers of the snapshot only.  So a write that fails
is never made up for, and a device that leaves the snapshot while it is online
keeps its open row.

A peer of a tick carries the answers of its statements.  `Poller.judged` is not
part of the program: it holds the judgements of the last tick.
-/

namespace ZeroVpn

open Library

namespace Worker

open Db (Uuid)

/-- A row of `connection_sessions`; times are in microseconds. -/
structure ConnectionSession where
  id : Nat
  deviceId : Uuid
  userId : Uuid
  startedAt : Int
  endedAt : Option Int
  peerEndpointAtStart : Option String
  peerEndpointAtEnd : Option String
  rxBytesAtStart : Int
  txBytesAtStart : Int
  rxBytesAtEnd : Option Int
  txBytesAtEnd : Option Int
  deriving DecidableEq, Repr

/-- An open session of the device. -/
def ConnectionSession.isOpen (device : Uuid) (r : ConnectionSession) : Bool :=
  r.deviceId == device && r.endedAt.isNone

/-- The end of a session. -/
structure SessionEnd where
  endedAt : Int
  peerEndpoint : Option String
  rxBytes : Option Int
  txBytes : Option Int
  deriving DecidableEq, Repr

def ConnectionSession.finish (e : SessionEnd) (r : ConnectionSession) : ConnectionSession :=
  { r with
    endedAt := some e.endedAt
    peerEndpointAtEnd := e.peerEndpoint
    rxBytesAtEnd := e.rxBytes
    txBytesAtEnd := e.txBytes }

/-- The table, with its `BIGSERIAL`. -/
structure SessionTable where
  rows : List ConnectionSession
  nextId : Nat
  unique : (rows.map (·.id)).Nodup
  fresh : ∀ r ∈ rows, r.id < nextId

/-- An update that keeps the identifiers. -/
def SessionTable.update (t : SessionTable) (f : ConnectionSession → ConnectionSession)
    (hf : ∀ r, (f r).id = r.id) : SessionTable where
  rows := t.rows.map f
  nextId := t.nextId
  unique := by
    have hids : (t.rows.map f).map (·.id) = t.rows.map (·.id) := by
      rw [List.map_map]
      exact List.map_congr_left fun r _ => hf r
    rw [hids]
    exact t.unique
  fresh := by
    intro r hr
    obtain ⟨r', hr', rfl⟩ := List.mem_map.mp hr
    rw [hf]
    exact t.fresh r' hr'

/-- `close_all_open`. -/
def SessionTable.closeAllOpen (t : SessionTable) (now : Int) : SessionTable :=
  t.update (fun r => if r.endedAt.isNone then { r with endedAt := some now } else r) fun r => by
    split <;> rfl

/-- What `open` stores. -/
structure SessionStart where
  deviceId : Uuid
  userId : Uuid
  peerEndpoint : Option String
  rxBytes : Int
  txBytes : Int
  startedAt : Int
  deriving DecidableEq, Repr

/-- `open`. -/
def SessionTable.openSession (t : SessionTable) (b : SessionStart) : SessionTable where
  rows := t.rows ++
    [{ id := t.nextId
       deviceId := b.deviceId
       userId := b.userId
       startedAt := b.startedAt
       endedAt := none
       peerEndpointAtStart := b.peerEndpoint
       peerEndpointAtEnd := none
       rxBytesAtStart := b.rxBytes
       txBytesAtStart := b.txBytes
       rxBytesAtEnd := none
       txBytesAtEnd := none }]
  nextId := t.nextId + 1
  unique := by
    rw [List.map_append, List.nodup_append]
    refine ⟨t.unique, by simp, ?_⟩
    intro a ha b hb
    obtain ⟨r, hr, rfl⟩ := List.mem_map.mp ha
    have hlt := t.fresh r hr
    have hnew : b = t.nextId := by simpa using hb
    omega
  fresh := by
    intro r hr
    rcases List.mem_append.mp hr with hold | hnew
    · exact Nat.lt_succ_of_lt (t.fresh r hold)
    · rw [List.mem_singleton.mp hnew]
      exact Nat.lt_succ_self _

/-- The most recent open session of the device. -/
def SessionTable.target (t : SessionTable) (device : Uuid) : Option ConnectionSession :=
  ((t.rows.filter (·.isOpen device)).mergeSort fun a b => decide (b.startedAt ≤ a.startedAt)).head?

/-- `close`. -/
def SessionTable.closeSession (t : SessionTable) (device : Uuid) (e : SessionEnd) : SessionTable :=
  match t.target device with
  | none => t
  | some row => t.update (fun r => if r.id = row.id then r.finish e else r) fun r => by
      split <;> rfl

/-- The open sessions of a device. -/
def SessionTable.openCount (t : SessionTable) (device : Uuid) : Nat :=
  t.rows.countP (·.isOpen device)

def offlineAfterSecs : Int := 90

def handshakeStaleSecs : Int := 180

/-- A peer of the snapshot, and what the statements for it answer. -/
structure PolledPeer where
  publicKey : String
  endpoint : Option String
  latestHandshake : Int
  rxBytes : Nat
  txBytes : Nat
  /-- `server_rx_delta` of `account`. -/
  accounted : Option Nat
  /-- Whether `open` or `close`, if it is called, succeeds. -/
  written : Bool
  deriving DecidableEq, Repr

/-- A tick of the poller whose snapshot and index could be read. -/
structure Tick where
  now : Int
  /-- `pubkey_index`: the device and its user. -/
  pkIndex : String → Option (Uuid × Uuid)
  peers : List PolledPeer

def Tick.nowSecs (tick : Tick) : Int := tick.now / 1000000

structure Poller where
  prevOnline : Uuid → Option Bool
  lastActivity : Uuid → Option Int
  sessions : SessionTable
  judged : Uuid → Option Bool

/-- Has handshaked, and was heard from recently. -/
def isOnline (nowSecs latestHandshake lastActivity : Int) : Bool :=
  decide (0 < latestHandshake) &&
    decide (nowSecs - max latestHandshake lastActivity < offlineAfterSecs) &&
    decide (nowSecs - latestHandshake < handshakeStaleSecs)

/-- The device of a peer that is judged: its key is in the index, its counters fit the
database and `account` succeeds. -/
def Tick.judges (tick : Tick) (p : PolledPeer) : Option (Uuid × Uuid × Nat) :=
  match tick.pkIndex p.publicKey with
  | none => none
  | some (device, user) =>
      if p.rxBytes < 2 ^ 63 ∧ p.txBytes < 2 ^ 63 then
        p.accounted.map fun drx => (device, user, drx)
      else none

namespace Poller

/-- `last_activity` after a tick with received bytes. -/
def activity (s : Poller) (tick : Tick) (device : Uuid) (drx : Nat) : Uuid → Option Int :=
  if 0 < drx then Function.update s.lastActivity device (some tick.nowSecs) else s.lastActivity

/-- The judgement on a peer. -/
def online (s : Poller) (tick : Tick) (p : PolledPeer) (device : Uuid) (drx : Nat) : Bool :=
  isOnline tick.nowSecs p.latestHandshake ((s.activity tick device drx device).getD 0)

/-- The row that a transition writes.  The counters of the peer are the server's, and
those of the session the device's. -/
def transition (t : SessionTable) (tick : Tick) (p : PolledPeer) (device user : Uuid)
    (prev : Option Bool) (online : Bool) : SessionTable :=
  match prev, online with
  | none, true | some false, true =>
      t.openSession
        { deviceId := device
          userId := user
          peerEndpoint := p.endpoint
          rxBytes := p.txBytes
          txBytes := p.rxBytes
          startedAt := tick.now }
  | some true, false =>
      t.closeSession device
        { endedAt := tick.now
          peerEndpoint := p.endpoint
          rxBytes := some p.txBytes
          txBytes := some p.rxBytes }
  | _, _ => t

/-- One round of the loop over the peers. -/
def visit (tick : Tick) (s : Poller) (p : PolledPeer) : Poller :=
  match tick.judges p with
  | none => s
  | some (device, user, drx) =>
      let online := s.online tick p device drx
      { prevOnline := Function.update s.prevOnline device (some online)
        lastActivity := s.activity tick device drx
        sessions :=
          if p.written then transition s.sessions tick p device user (s.prevOnline device) online
          else s.sessions
        judged := Function.update s.judged device (some online) }

/-- `poll_once`. -/
def pollOnce (s : Poller) (tick : Tick) : Poller :=
  runEvents (visit tick) { s with judged := fun _ => none } tick.peers

/-- A new worker, after its sweep. -/
def start (t : SessionTable) : Poller where
  prevOnline _ := none
  lastActivity _ := none
  sessions := t
  judged _ := none

end Poller

inductive PollerEvent where
  | poll (tick : Tick)
  /-- The snapshot or the index cannot be read. -/
  | pollFailed
  /-- The worker starts again; the sweep may fail. -/
  | restart (now : Int) (swept : Bool)

def pollerStep (s : Poller) : PollerEvent → Poller
  | .poll tick => s.pollOnce tick
  | .pollFailed => s
  | .restart now swept => .start (if swept then s.sessions.closeAllOpen now else s.sessions)

/-- After the tick a device has one open session if it was judged online, and none
otherwise. -/
def Mirrors (s : Poller) (tick : Tick) : Prop :=
  ∀ device, (s.pollOnce tick).sessions.openCount device =
    if (s.pollOnce tick).judged device = some true then 1 else 0

/-- The visit of the peer writes a row. -/
def Poller.writes (tick : Tick) (s : Poller) (p : PolledPeer) : Prop :=
  ∃ device user drx, tick.judges p = some (device, user, drx) ∧
    (s.prevOnline device).getD false ≠ s.online tick p device drx

/-- Every row that a tick writes is written, and every device that was online is judged;
a restart sweeps what is open. -/
def RowsKept (s : Poller) : PollerEvent → Prop
  | .poll tick =>
      Along (Poller.visit tick) (fun s p => s.writes tick p → p.written = true)
          { s with judged := fun _ => none } tick.peers ∧
        ∀ device, s.prevOnline device = some true →
          ∃ p ∈ tick.peers, ∃ user drx, tick.judges p = some (device, user, drx)
  | .pollFailed => True
  | .restart _ swept => swept = false → ∀ device, s.sessions.openCount device = 0

namespace SessionTable

variable (t : SessionTable) (device : Uuid)

theorem openCount_openSession (b : SessionStart) :
    (t.openSession b).openCount device =
      t.openCount device + if b.deviceId = device then 1 else 0 := by
  unfold openCount openSession
  rw [List.countP_append, List.countP_singleton]
  simp [ConnectionSession.isOpen]

theorem openCount_closeAllOpen (now : Int) : (t.closeAllOpen now).openCount device = 0 := by
  refine List.countP_eq_zero.mpr fun r hr => ?_
  obtain ⟨r', -, rfl⟩ := List.mem_map.mp hr
  unfold ConnectionSession.isOpen
  split
  · simp
  · rename_i hended
    simp [hended]

theorem target_mem {row : ConnectionSession} (h : t.target device = some row) :
    row ∈ t.rows ∧ row.isOpen device = true := by
  have hmem := List.mem_of_mem_head? h
  rw [List.mem_mergeSort] at hmem
  exact List.mem_filter.mp hmem

theorem target_eq_none (h : t.target device = none) : t.openCount device = 0 := by
  have hnil := List.head?_eq_none_iff.mp h
  refine List.countP_eq_zero.mpr fun r hr hopen => ?_
  have hmem : r ∈ (t.rows.filter (·.isOpen device)).mergeSort
      fun a b => decide (b.startedAt ≤ a.startedAt) :=
    List.mem_mergeSort.mpr (List.mem_filter.mpr ⟨hr, hopen⟩)
  rw [hnil] at hmem
  cases hmem

/-- Ending the open session of one identifier. -/
theorem countP_finish {rows : List ConnectionSession} (hunique : (rows.map (·.id)).Nodup)
    {row : ConnectionSession} (hrow : row ∈ rows) (hopen : row.isOpen device = true)
    (e : SessionEnd) (d : Uuid) :
    (rows.map fun r => if r.id = row.id then r.finish e else r).countP (·.isOpen d) +
        (if device = d then 1 else 0) = rows.countP (·.isOpen d) := by
  induction rows with
  | nil =>
      cases hrow
  | cons r rows ih =>
      obtain ⟨hnew, hrest⟩ := List.nodup_cons.mp hunique
      rw [List.map_cons, List.countP_cons, List.countP_cons]
      rcases List.mem_cons.mp hrow with rfl | hrow
      · have hkept : (rows.map fun r' => if r'.id = row.id then r'.finish e else r') = rows := by
          conv_rhs => rw [← List.map_id rows]
          refine List.map_congr_left fun r' hr' => ?_
          have hne : r'.id ≠ row.id := fun heq => hnew (List.mem_map.mpr ⟨r', hr', heq⟩)
          simp [hne]
        have hdevice : row.deviceId = device := by
          simp only [ConnectionSession.isOpen, Bool.and_eq_true, beq_iff_eq] at hopen
          exact hopen.1
        have hended : row.endedAt = none := by
          simp only [ConnectionSession.isOpen, Bool.and_eq_true, Option.isNone_iff_eq_none] at hopen
          exact hopen.2
        rw [hkept]
        simp [ConnectionSession.isOpen, ConnectionSession.finish, hdevice, hended]
      · have hne : r.id ≠ row.id := fun heq => hnew (List.mem_map.mpr ⟨row, hrow, heq.symm⟩)
        have htail := ih hrest hrow
        rw [if_neg hne]
        omega

theorem openCount_closeSession (e : SessionEnd) (d : Uuid) :
    (t.closeSession device e).openCount d = t.openCount d - if device = d then 1 else 0 := by
  unfold closeSession
  split
  · rename_i hnone
    by_cases hd : device = d
    · rw [← hd, t.target_eq_none device hnone]
      simp
    · simp [hd]
  · rename_i row hrow
    obtain ⟨hmem, hopen⟩ := t.target_mem device hrow
    have hcount := countP_finish device t.unique hmem hopen e d
    change (t.rows.map _).countP _ = t.rows.countP _ - _
    omega

end SessionTable

namespace Poller

/-- The open sessions are those of the devices that were judged online last. -/
def Agrees (s : Poller) : Prop :=
  ∀ device, s.sessions.openCount device = if s.prevOnline device = some true then 1 else 0

variable {tick : Tick} {s : Poller} {p : PolledPeer}

/-- The rows after a transition that is written. -/
theorem openCount_transition (h : s.Agrees) (device user d : Uuid) (online : Bool) :
    (transition s.sessions tick p device user (s.prevOnline device) online).openCount d =
      if Function.update s.prevOnline device (some online) d = some true then 1 else 0 := by
  have hd := h d
  by_cases hdevice : d = device
  · subst hdevice
    rw [Function.update_self]
    cases hprev : s.prevOnline d with
    | none =>
        rw [hprev] at hd
        cases online with
        | true =>
            simp only [transition, SessionTable.openCount_openSession, hd]
            rfl
        | false =>
            exact hd
    | some was =>
        rw [hprev] at hd
        cases was with
        | true =>
            cases online with
            | true =>
                exact hd
            | false =>
                simp only [transition, SessionTable.openCount_closeSession, hd]
                rfl
        | false =>
            cases online with
            | true =>
                simp only [transition, SessionTable.openCount_openSession, hd]
                rfl
            | false =>
                exact hd
  · rw [Function.update_of_ne hdevice, ← hd]
    unfold transition
    split
    · simp [SessionTable.openCount_openSession, Ne.symm hdevice]
    · simp [SessionTable.openCount_openSession, Ne.symm hdevice]
    · simp [SessionTable.openCount_closeSession, Ne.symm hdevice]
    · rfl

/-- A visit whose row, if there is one, is written. -/
theorem agrees_visit (h : s.Agrees) (hwritten : s.writes tick p → p.written = true) :
    (visit tick s p).Agrees := by
  unfold visit
  split
  · exact h
  · rename_i device user drx hjudges
    intro d
    cases hp : p.written with
    | true =>
        exact openCount_transition h device user d _
    | false =>
        -- Nothing had to be written: the judgement is the one before.
        have hsame : (s.prevOnline device).getD false = s.online tick p device drx := by
          by_contra hne
          rw [hwritten ⟨device, user, drx, hjudges, hne⟩] at hp
          cases hp
        change s.sessions.openCount d = if Function.update s.prevOnline device
          (some (s.online tick p device drx)) d = some true then 1 else 0
        rw [h d]
        by_cases hd : d = device
        · subst hd
          rw [Function.update_self, ← hsame]
          cases s.prevOnline d with
          | none =>
              rfl
          | some was =>
              rfl
        · rw [Function.update_of_ne hd]

/-- A device that was judged has its judgement remembered; another one keeps what was
remembered of it. -/
def Remembers (before s : Poller) : Prop :=
  ∀ device, s.judged device = none ∧ s.prevOnline device = before.prevOnline device ∨
    s.judged device ≠ none ∧ s.judged device = s.prevOnline device

theorem remembers_visit {before : Poller} (h : Remembers before s) (p : PolledPeer) :
    Remembers before (visit tick s p) := by
  unfold visit
  split
  · exact h
  · rename_i device user drx hjudges
    intro d
    by_cases hd : d = device
    · subst hd
      exact .inr ⟨by simp, by simp⟩
    · simpa only [Function.update_of_ne hd] using h d

/-- Every peer that is judged leaves its judgement. -/
theorem judged_of_judges {peers : List PolledPeer} {device user : Uuid} {drx : Nat}
    (hp : p ∈ peers) (hjudges : tick.judges p = some (device, user, drx)) (s : Poller) :
    (runEvents (visit tick) s peers).judged device ≠ none := by
  have hkept (peers : List PolledPeer) (s : Poller) (hs : s.judged device ≠ none) :
      (runEvents (visit tick) s peers).judged device ≠ none := by
    induction peers generalizing s with
    | nil =>
        exact hs
    | cons q peers ih =>
        refine ih _ ?_
        unfold visit
        split
        · exact hs
        · rename_i other user drx hother
          by_cases hd : device = other
          · subst hd
            simp
          · simpa only [Function.update_of_ne hd] using hs
  induction peers generalizing s with
  | nil =>
      cases hp
  | cons q peers ih =>
      rcases List.mem_cons.mp hp with rfl | hp
      · refine hkept peers _ ?_
        unfold visit
        simp [hjudges]
      · exact ih hp _

/-- What every round of the loop keeps. -/
theorem run_visits {before : Poller} {peers : List PolledPeer} (hs : s.Agrees)
    (hm : Remembers before s)
    (h : Along (visit tick) (fun s p => s.writes tick p → p.written = true) s peers) :
    (runEvents (visit tick) s peers).Agrees ∧
      Remembers before (runEvents (visit tick) s peers) := by
  induction peers generalizing s with
  | nil =>
      exact ⟨hs, hm⟩
  | cons p peers ih =>
      exact ih (agrees_visit hs h.1) (remembers_visit hm p) h.2

/-- A tick that keeps the rows. -/
theorem agrees_poll (h : s.Agrees) (hkept : RowsKept s (.poll tick)) :
    (s.pollOnce tick).Agrees ∧ Mirrors s tick := by
  have hstart : Remembers s { s with judged := fun _ => none } := fun _ => .inl ⟨rfl, rfl⟩
  obtain ⟨hagrees, hremembers⟩ :=
    run_visits (s := { s with judged := fun _ => none }) h hstart hkept.1
  refine ⟨hagrees, fun device => ?_⟩
  have hcount : (s.pollOnce tick).sessions.openCount device =
      if (s.pollOnce tick).prevOnline device = some true then 1 else 0 := hagrees device
  rcases hremembers device with ⟨hnone, hprev⟩ | ⟨-, hjudged⟩
  · have hoffline : s.prevOnline device ≠ some true := by
      intro honline
      obtain ⟨p, hp, user, drx, hjudges⟩ := hkept.2 device honline
      exact judged_of_judges hp hjudges _ hnone
    rw [hcount, show (s.pollOnce tick).prevOnline device = s.prevOnline device from hprev,
      show (s.pollOnce tick).judged device = none from hnone, if_neg hoffline]
    rfl
  · rw [hcount, show (s.pollOnce tick).judged device = (s.pollOnce tick).prevOnline device from
      hjudged]

theorem agrees_step (h : s.Agrees) {e : PollerEvent} (hkept : RowsKept s e) :
    (pollerStep s e).Agrees := by
  cases e with
  | poll tick =>
      exact (agrees_poll h hkept).1
  | pollFailed =>
      exact h
  | restart now swept =>
      intro device
      cases swept with
      | true =>
          exact SessionTable.openCount_closeAllOpen _ device now
      | false =>
          exact hkept rfl device

end Poller

/-- From a startup sweep on, in every run in which each row is written and no device
leaves the judged peers while it is online, the open sessions mirror the last tick. -/
theorem sessions_mirror_liveness (t : SessionTable) (now : Int) (es : List PollerEvent)
    (hes : Along pollerStep RowsKept (.start (t.closeAllOpen now)) es) :
    Along pollerStep (fun s e => ∀ tick, e = .poll tick → Mirrors s tick)
      (.start (t.closeAllOpen now)) es := by
  refine along_of_inv Poller.Agrees (fun s e h hkept => Poller.agrees_step h hkept) ?_ ?_ hes
  · rintro s e h hkept tick rfl
    exact (Poller.agrees_poll h hkept).2
  · exact fun device => SessionTable.openCount_closeAllOpen t device now

section Sample

def sampleTable : SessionTable where
  rows := []
  nextId := 1
  unique := List.nodup_nil
  fresh _ hr := by cases hr

/-- The peer of device 1. -/
def samplePeer (latestHandshake : Int) (written : Bool) : PolledPeer where
  publicKey := "k"
  endpoint := none
  latestHandshake := latestHandshake
  rxBytes := 0
  txBytes := 0
  accounted := some 0
  written := written

def sampleTick (seconds : Int) (peers : List PolledPeer) : Tick where
  now := seconds * 1000000
  pkIndex key := if key = "k" then some (1, 2) else none
  peers := peers

/-- The device comes online, and is paused; or the row of its end is not written. -/
theorem vanished_device_stays_open :
    let s := runEvents pollerStep (.start (sampleTable.closeAllOpen 0))
      [.poll (sampleTick 1000 [samplePeer 990 true])]
    (s.pollOnce (sampleTick 1005 [])).sessions.openCount 1 = 1 ∧
      ¬ Mirrors s (sampleTick 1005 []) ∧
      ¬ Mirrors s (sampleTick 2000 [samplePeer 990 false]) := by
  intro s
  have hvanished : (s.pollOnce (sampleTick 1005 [])).sessions.openCount 1 = 1 := by decide
  refine ⟨hvanished, fun h => ?_, fun h => ?_⟩
  · have hnone : (s.pollOnce (sampleTick 1005 [])).judged 1 = none := by decide
    have hcount := h 1
    rw [hvanished, hnone] at hcount
    cases hcount
  · have hopen : (s.pollOnce (sampleTick 2000 [samplePeer 990 false])).sessions.openCount 1 = 1 := by
      decide
    have hoffline : (s.pollOnce (sampleTick 2000 [samplePeer 990 false])).judged 1 = some false := by
      decide
    have hcount := h 1
    rw [hopen, hoffline] at hcount
    cases hcount

/-- The device comes online and goes silent. -/
theorem sessions_mirror_sample :
    Along pollerStep (fun s e => ∀ tick, e = .poll tick → Mirrors s tick)
      (.start (sampleTable.closeAllOpen 0))
      [.poll (sampleTick 1000 [samplePeer 990 true]),
        .poll (sampleTick 2000 [samplePeer 990 true])] := by
  refine sessions_mirror_liveness sampleTable 0 _ ⟨⟨?_, ?_⟩, ⟨?_, ?_⟩, trivial⟩
  · exact ⟨fun _ => rfl, trivial⟩
  · intro device honline
    cases honline
  · exact ⟨fun _ => rfl, trivial⟩
  · intro device honline
    by_cases hdevice : device = 1
    · subst hdevice
      exact ⟨samplePeer 990 true, List.mem_singleton.mpr rfl, 2, 0, rfl⟩
    · have hnone : (pollerStep (.start (sampleTable.closeAllOpen 0))
          (.poll (sampleTick 1000 [samplePeer 990 true]))).prevOnline device = none :=
        Function.update_of_ne hdevice _ _
      rw [hnone] at honline
      cases honline

end Sample

end Worker
end ZeroVpn
