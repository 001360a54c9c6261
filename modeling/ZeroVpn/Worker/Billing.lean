import ZeroVpn.Api.Statements
import ZeroVpn.Worker.WgPoller

/-!
# Billing across counter resets

The counters of a peer start at zero whenever the peer or the interface is
created, and the poller only sees some of their values.  A checkpoint stands for
a moment at which a peer was read.  Either that peer is still there, and then the
next reading is taken under the same key and generation and its counters have
grown by what went through; or it is gone, and then everything that the next
peer counts went through after that moment.  In both cases `account` adds no
more than that.

`Captured` is such a moment, `BillingInv` the invariant and
`never_over_billed` the result.
-/

namespace ZeroVpn

open Library

namespace Worker

open HostAgent (Instance PeerStats KernelInterface GenerationRecord Fault peerStats
  peerStats_cases GenerationStore.observe_known GenerationStore.observe_ok)
open Db (Uuid Device Checkpoint)
open Db.PeerUsageCheckpoints (Observation Delta Delivery deliver delivered delivered_cases
  checkpointOf checkpointOf_account account_eq_ok)

section Life

/-- The totals never decrease. -/
theorem totals_step (k : Kernel) (e : KernelEvent) :
    k.received ≤ (kernelStep k e).received ∧ k.sent ≤ (kernelStep k e).sent := by
  cases e with
  | receive bytes =>
      exact ⟨Nat.le_add_right _ _, Nat.le_refl _⟩
  | send bytes =>
      exact ⟨Nat.le_refl _, Nat.le_add_right _ _⟩
  | _ =>
      exact ⟨Nat.le_refl _, Nat.le_refl _⟩

theorem totals_run (k : Kernel) (es : List KernelEvent) :
    k.received ≤ (runEvents kernelStep k es).received ∧
      k.sent ≤ (runEvents kernelStep k es).sent := by
  induction es generalizing k with
  | nil =>
      exact ⟨Nat.le_refl _, Nat.le_refl _⟩
  | cons e es ih =>
      exact ⟨Nat.le_trans (totals_step k e).1 (ih _).1,
        Nat.le_trans (totals_step k e).2 (ih _).2⟩

/-- The moment at which a peer was read, with the totals up to then. -/
structure Captured where
  identity : Instance
  peer : PeerStats
  received : Nat
  sent : Nat

namespace Captured

variable {c : Captured} {k : Kernel} {e : KernelEvent}

structure Before (c : Captured) (k : Kernel) : Prop where
  received : c.received ≤ k.received
  sent : c.sent ≤ k.sent

/-- The peer is still there and has counted what went through since. -/
structure AliveAs (c : Captured) (k : Kernel) (i : KernelInterface) (p : PeerStats) : Prop where
  interface : k.interface = some i
  peer : i.peer = some p
  identity : i.identity = c.identity
  publicKey : p.publicKey = c.peer.publicKey
  rx : p.rxBytes + c.received = c.peer.rxBytes + k.received
  tx : p.txBytes + c.sent = c.peer.txBytes + k.sent

def Alive (c : Captured) (k : Kernel) : Prop := ∃ i p, c.AliveAs k i p

/-- Whatever the present peer has counted went through since. -/
def Gone (c : Captured) (k : Kernel) : Prop :=
  ∀ i p, k.interface = some i → i.peer = some p →
    p.rxBytes + c.received ≤ k.received ∧ p.txBytes + c.sent ≤ k.sent

theorem Before.step (h : c.Before k) (e : KernelEvent) : c.Before (kernelStep k e) :=
  ⟨Nat.le_trans h.received (totals_step k e).1, Nat.le_trans h.sent (totals_step k e).2⟩

theorem Before.run (h : c.Before k) (es : List KernelEvent) :
    c.Before (runEvents kernelStep k es) :=
  ⟨Nat.le_trans h.received (totals_run k es).1, Nat.le_trans h.sent (totals_run k es).2⟩

theorem Gone.step (h : c.Gone k) (hb : c.Before k) (e : KernelEvent) :
    c.Gone (kernelStep k e) := by
  obtain ⟨interface, received, sent⟩ := k
  obtain ⟨hr, hs⟩ := hb
  intro i p hi hp
  cases interface with
  | none =>
      cases e with
      | create identity publicKey =>
          cases hi
          cases hp
      | _ =>
          cases hi
  | some j =>
      obtain ⟨identity, publicKey, peer⟩ := j
      cases peer with
      | none =>
          cases e with
          | addPeer key =>
              cases hi
              cases hp
              simpa [kernelStep, Kernel.insertPeer] using And.intro hr hs
          | delete =>
              cases hi
          | _ =>
              cases hi
              cases hp
      | some q =>
          have hq : q.rxBytes + c.received ≤ received ∧ q.txBytes + c.sent ≤ sent :=
            h _ q rfl rfl
          cases e with
          | receive bytes | send bytes =>
              cases hi
              cases hp
              simp only [kernelStep, Kernel.counted, Kernel.peer, Kernel.updatePeer,
                Option.bind_some, Option.isSome_some, if_true]
              exact ⟨by omega, by omega⟩
          | delete =>
              cases hi
          | removePeer =>
              cases hi
              cases hp
          | _ =>
              cases hi
              cases hp
              exact hq

theorem Alive.step (h : c.Alive k) (e : KernelEvent) :
    c.Alive (kernelStep k e) ∨ c.Gone (kernelStep k e) := by
  obtain ⟨i, p, hi, hp, hid, hkey, hrx, htx⟩ := h
  obtain ⟨interface, received, sent⟩ := k
  obtain ⟨identity, publicKey, peer⟩ := i
  dsimp only at hi hp hid hrx htx
  subst hi hp
  cases e with
  | receive bytes | send bytes =>
      refine Or.inl ⟨_, _, rfl, rfl, hid, hkey, ?_, ?_⟩
      all_goals
        simp only [kernelStep, Kernel.counted, Kernel.peer, Kernel.updatePeer,
          Option.bind_some, Option.isSome_some, if_true]
        omega
  | removePeer =>
      refine Or.inr fun i p hi hp => ?_
      cases hi
      cases hp
  | delete =>
      refine Or.inr fun i p hi hp => ?_
      cases hi
  | _ =>
      exact Or.inl ⟨_, _, rfl, rfl, hid, hkey, hrx, htx⟩

/-- What a run of the kernel leaves of a reading. -/
theorem Gone.run (h : c.Gone k) (hb : c.Before k) (es : List KernelEvent) :
    c.Gone (runEvents kernelStep k es) := by
  induction es generalizing k with
  | nil =>
      exact h
  | cons e es ih =>
      exact ih (h.step hb e) (hb.step e)

theorem Alive.run (h : c.Alive k) (hb : c.Before k) (es : List KernelEvent) :
    c.Alive (runEvents kernelStep k es) ∨ c.Gone (runEvents kernelStep k es) := by
  induction es generalizing k with
  | nil =>
      exact Or.inl h
  | cons e es ih =>
      rcases h.step e with halive | hgone
      · exact ih halive (hb.step e)
      · exact Or.inr (hgone.run (hb.step e) es)

/-- A reading of the present peer. -/
def ofKernel (k : Kernel) (i : KernelInterface) (p : PeerStats) : Captured :=
  ⟨i.identity, p, k.received, k.sent⟩

theorem before_ofKernel (k : Kernel) (i : KernelInterface) (p : PeerStats) :
    (ofKernel k i p).Before k := ⟨Nat.le_refl _, Nat.le_refl _⟩

theorem alive_ofKernel {i : KernelInterface} {p : PeerStats} (hi : k.interface = some i)
    (hp : i.peer = some p) : (ofKernel k i p).Alive k :=
  ⟨i, p, hi, hp, rfl, rfl, Nat.add_comm _ _ ▸ rfl, Nat.add_comm _ _ ▸ rfl⟩

end Captured

end Life

section Generation

/-- The generation under which a poll of an unchanged interface reports. -/
def reports (source : StatsSource) (applied : Option String) (record : Option GenerationRecord)
    (i : Instance) : Option String :=
  match source, applied, record with
  | .legacy, _, _ => some "legacy:wg0"
  | .hostAgent, some key, some r =>
      if r.fingerprint = i.fingerprint key then some ("host:" ++ r.generation) else none
  | .hostAgent, _, _ => none

variable {source : StatsSource} {fails : Fault → Bool} {draw g : String}
variable {applied : Option String} {before dump again after : Option KernelInterface}
variable {record : Option GenerationRecord} {i : KernelInterface} {snapshot : StatsSnapshot}

theorem reports_hostAgent (h : reports .hostAgent applied record i.identity = some g) :
    ∃ key r, applied = some key ∧ record = some r ∧
      r.fingerprint = i.identity.fingerprint key ∧ g = "host:" ++ r.generation := by
  cases applied with
  | none =>
      cases h
  | some key =>
      cases record with
      | none =>
          cases h
      | some r =>
          simp only [reports] at h
          split at h
          · rename_i hr
            cases h
            exact ⟨key, r, rfl, rfl, hr, rfl⟩
          · cases h

/-- Applying a state does not change what is reported. -/
theorem reports_apply {id : Instance} (key : String) (h : reports source applied record id = some g) :
    reports source (some (applied.getD key)) record id = some g := by
  cases source with
  | legacy =>
      exact h
  | hostAgent =>
      cases applied with
      | none =>
          cases h
      | some key' =>
          exact h

theorem snapshotFromAgent_ok {r : Except String HostAgent.StatsResponse}
    (h : snapshotFromAgent r = .ok snapshot) :
    ∃ generation, r = .ok ⟨some generation, snapshot.peer⟩ ∧
      snapshot.sourceGeneration = "host:" ++ generation := by
  unfold snapshotFromAgent at h
  split at h
  · rename_i generation peer
    cases h
    exact ⟨generation, rfl, rfl⟩
  · cases h
  · cases h

/-- A poll of an interface that is known since its beginning reports its generation. -/
theorem snapshot_known (hbefore : before = some i)
    (hreports : reports source applied record i.identity = some g) :
    (source.snapshot fails draw applied before dump again after record).1 = record ∧
      ∀ snapshot, (source.snapshot fails draw applied before dump again after record).2 =
        .ok snapshot → snapshot.sourceGeneration = g := by
  cases source with
  | legacy =>
      refine ⟨rfl, ?_⟩
      intro snapshot hs
      simp only [StatsSource.snapshot, legacySnapshot] at hs
      split at hs
      · cases hs
        cases hreports
        rfl
      · cases hs
  | hostAgent =>
      obtain ⟨key, r, rfl, rfl, hr, rfl⟩ := reports_hostAgent hreports
      simp only [StatsSource.snapshot]
      rcases peerStats_cases fails draw (some key) before dump again after (some r) with
        ⟨hsame, hnone⟩ | ⟨key', i', j, hkey, hi', _, _, hrecord, hok⟩
      · refine ⟨hsame, ?_⟩
        intro snapshot hs
        obtain ⟨generation, hresp, _⟩ := snapshotFromAgent_ok hs
        cases hnone _ hresp
      · cases hkey
        rw [hbefore] at hi'
        cases hi'
        rw [← hr] at hrecord hok
        obtain ⟨hkept, hgen⟩ := GenerationStore.observe_known fails draw r
        refine ⟨hrecord.trans hkept, ?_⟩
        intro snapshot hs
        obtain ⟨generation, hresp, hsource⟩ := snapshotFromAgent_ok hs
        obtain ⟨g, hg, hresp'⟩ := hok _ hresp
        injection hresp' with hsome _
        cases hsome
        rw [hsource, hgen _ hg]

/-- The generation that a poll reports is the one of the interface after the dump. -/
theorem snapshot_reports
    (h : (source.snapshot fails draw applied before dump again after record).2 = .ok snapshot)
    (hagain : again = some i) :
    reports source applied
        (source.snapshot fails draw applied before dump again after record).1 i.identity =
      some snapshot.sourceGeneration := by
  cases source with
  | legacy =>
      simp only [StatsSource.snapshot, legacySnapshot] at h
      split at h
      · cases h
        rfl
      · cases h
  | hostAgent =>
      simp only [StatsSource.snapshot] at h ⊢
      obtain ⟨generation, hresp, hsource⟩ := snapshotFromAgent_ok h
      rcases peerStats_cases fails draw applied before dump again after record with
        ⟨_, hnone⟩ | ⟨key, i', j, hkey, _, hj, hsame, hrecord, hok⟩
      · cases hnone _ hresp
      · rw [hagain] at hj
        cases hj
        obtain ⟨g, hg, hresp'⟩ := hok _ hresp
        injection hresp' with hsome _
        cases hsome
        rw [hrecord, GenerationStore.observe_ok hg, hkey, hsource, ← hsame]
        simp [reports]

/-- The line of a snapshot is that of the dump. -/
theorem snapshot_peer
    (h : (source.snapshot fails draw applied before dump again after record).2 = .ok snapshot) :
    snapshot.peer = dump.bind KernelInterface.peer := by
  cases source with
  | legacy =>
      simp only [StatsSource.snapshot, legacySnapshot] at h
      split at h
      · cases h
        simp
      · cases h
  | hostAgent =>
      simp only [StatsSource.snapshot] at h
      obtain ⟨generation, hresp, _⟩ := snapshotFromAgent_ok h
      rcases peerStats_cases fails draw applied before dump again after record with
        ⟨_, hnone⟩ | ⟨key, i', j, _, _, _, _, _, hok⟩
      · cases hnone _ hresp
      · obtain ⟨g, _, hresp'⟩ := hok _ hresp
        injection hresp'

end Generation

section Account

variable {k : Kernel} {c : Captured} {old : Checkpoint} {p : PeerStats} {a : Observation}

/-- An observation of a peer. -/
structure Observes (a : Observation) (p : PeerStats) : Prop where
  publicKey : a.publicKey = p.publicKey
  rx : a.serverRx = p.rxBytes
  tx : a.serverTx = p.txBytes

/-- A checkpoint stands for a reading. -/
structure StandsFor (old : Checkpoint) (c : Captured) : Prop where
  publicKey : old.publicKey = c.peer.publicKey
  rx : old.rawServerRxBytes = c.peer.rxBytes
  tx : old.rawServerTxBytes = c.peer.txBytes

/-- The next peer counts from zero: at most its counters are added. -/
theorem delta_le_counters (ha : Observes a p) (hrx : 0 ≤ old.rawServerRxBytes)
    (htx : 0 ≤ old.rawServerTxBytes) :
    (a.delta old false).serverRx ≤ p.rxBytes ∧ (a.delta old false).serverTx ≤ p.txBytes := by
  have harx := ha.rx
  have hatx := ha.tx
  unfold Observation.delta
  split
  · exact ⟨Int.natCast_nonneg _, Int.natCast_nonneg _⟩
  · split
    · exact ⟨le_of_eq harx, le_of_eq hatx⟩
    · dsimp only
      exact ⟨by omega, by omega⟩

/-- The same peer has grown: at most the growth is added. -/
theorem delta_le_growth (ha : Observes a p) (hold : StandsFor old c)
    (hkey : p.publicKey = c.peer.publicKey) (hsource : a.sourceGeneration = old.sourceGeneration)
    (hrx : c.peer.rxBytes ≤ p.rxBytes) (htx : c.peer.txBytes ≤ p.txBytes) :
    (a.delta old false).serverRx ≤ p.rxBytes - c.peer.rxBytes ∧
      (a.delta old false).serverTx ≤ p.txBytes - c.peer.txBytes := by
  have harx := ha.rx
  have hatx := ha.tx
  have horx := hold.rx
  have hotx := hold.tx
  have hsame : a.changedSource old = false := by
    simp [Observation.changedSource, hold.publicKey, ha.publicKey, hkey, hsource]
  have hgrown : a.regressed old = false := by
    simp only [Observation.regressed, Bool.or_eq_false_iff, decide_eq_false_iff_not]
    omega
  unfold Observation.delta
  split
  · dsimp only
    exact ⟨by omega, by omega⟩
  · simp only [hsame, hgrown, Bool.or_self, Bool.false_eq_true, if_false]
    exact ⟨by omega, by omega⟩

/-- No more is added than went through since the reading of the checkpoint. -/
theorem delta_le_traffic (ha : Observes a p) (hold : StandsFor old c) (hb : c.Before k)
    {i : KernelInterface} (hi : k.interface = some i) (hp : i.peer = some p)
    (hlife : c.Gone k ∨ c.Alive k ∧ a.sourceGeneration = old.sourceGeneration) :
    (a.delta old false).serverRx ≤ (k.received : Int) - c.received ∧
      (a.delta old false).serverTx ≤ (k.sent : Int) - c.sent := by
  obtain ⟨hbr, hbs⟩ := hb
  rcases hlife with hgone | ⟨⟨i', p', hi', hp', _, hkey, hrx, htx⟩, hsource⟩
  · obtain ⟨hgrx, hgtx⟩ := hgone i p hi hp
    have horx := hold.rx
    have hotx := hold.tx
    obtain ⟨hdrx, hdtx⟩ := delta_le_counters ha (show 0 ≤ old.rawServerRxBytes by omega)
      (show 0 ≤ old.rawServerTxBytes by omega)
    exact ⟨by omega, by omega⟩
  · rw [hi] at hi'
    cases hi'
    rw [hp] at hp'
    cases hp'
    obtain ⟨hdrx, hdtx⟩ := delta_le_growth ha hold hkey hsource (by omega) (by omega)
    exact ⟨by omega, by omega⟩

end Account

section Invariant

variable (source : StatsSource) (applied : Option String) (record : Option GenerationRecord)

/-- A checkpoint stands for a reading, up to which the billed bytes went through, and
the next poll can tell whether the peer is still the same. -/
structure Traced (old : Checkpoint) (billed : Delta) (k : Kernel) (c : Captured) : Prop where
  stands : StandsFor old c
  before : c.Before k
  rx : billed.serverRx ≤ c.received
  tx : billed.serverTx ≤ c.sent
  life : c.Gone k ∨ c.Alive k ∧ reports source applied record c.identity = some old.sourceGeneration

/-- No more was billed than went through. -/
def World.NotOverBilled (w : World) : Prop :=
  w.billed.serverRx ≤ w.kernel.received ∧ w.billed.serverTx ≤ w.kernel.sent

instance (w : World) : Decidable w.NotOverBilled := inferInstanceAs (Decidable (_ ∧ _))

structure BillingInv (device : Uuid) (w : World) : Prop where
  fair : w.NotOverBilled
  traced : ∀ old, checkpointOf device w.db = some old →
    ∃ c, Traced source w.applied w.record old w.billed w.kernel c

variable {source applied record} {old : Checkpoint} {billed : Delta} {k : Kernel} {c : Captured}

theorem Traced.run (h : Traced source applied record old billed k c) (es : List KernelEvent) :
    Traced source applied record old billed (runEvents kernelStep k es) c where
  stands := h.stands
  before := h.before.run es
  rx := h.rx
  tx := h.tx
  life := by
    rcases h.life with hgone | ⟨halive, hreports⟩
    · exact Or.inl (hgone.run h.before es)
    · rcases halive.run h.before es with halive' | hgone
      · exact Or.inr ⟨halive', hreports⟩
      · exact Or.inl hgone

section Statements

/-- No statement outside the accounting writes a checkpoint. -/
theorem run_checkpoints {q : Api.DbCall} {r : q.Reply} {db db' : Db}
    (h : q.run db = .ok (r, db')) : ∀ x ∈ db'.checkpoints, x ∈ db.checkpoints := by
  intro x hx
  cases q with
  | findUser _ | findUserByEmail _ | deviceLimit _ | monthQuota _ | countActiveAdmins
  | listForUser _ | findForUser _ _ | getById _ | allocatedIpsForServer _ | activePeers
  | listActiveServers | findServer _ | defaultKeyState | resumeCandidates | pauseCandidates =>
      cases h
      exact hx
  | createUser _ _ _ _ | createDevice _ _ | createServer _ _ _ =>
      rw [(Db.write_return_eq_ok h).1] at hx
      exact hx
  | hardDelete _ =>
      rw [(Db.write_return_eq_ok h).1] at hx
      exact (List.mem_filter.mp hx).1
  | adminSetStatus _ _ | adminSetRole _ _ | promoteBootstrapAdmin _ | resetDueUsers _ _ =>
      rw [(Db.updateUsers_eq_ok h).1] at hx
      exact hx
  | setPrivateKeyEncrypted _ _ _ | setStatus _ _ _ | updatePublicKey _ _ _ | setQuota _ _
  | resetDueDevices _ _ | markAutoPaused _ | markResumed _ =>
      rw [(Db.updateDevices_eq_ok h).1] at hx
      exact hx
  | setServerPrivateKey _ _ | setKeypair _ _ _ =>
      rw [Db.updateServers_eq_ok h] at hx
      exact hx
  | softDelete _ _ =>
      obtain ⟨_, db₁, hu, h⟩ := Db.tx_bind_eq_ok.mp h
      obtain ⟨_, db₂, hd, h⟩ := Db.tx_bind_eq_ok.mp h
      cases h
      rw [(Db.updateDevices_eq_ok hd).1, (Db.updateUsers_eq_ok hu).1] at hx
      exact hx

variable {device : Uuid} {db : Db}

theorem checkpointOf_statement {q : Api.DbCall}
    (h : checkpointOf device (statement db q) = some old) : checkpointOf device db = some old := by
  unfold statement at h
  split at h
  · rename_i r db' hrun
    have hmem := run_checkpoints hrun old (List.mem_of_find?_eq_some h)
    have hid : old.deviceId = device := by
      simpa using List.find?_some h
    subst hid
    exact (find?_key_eq_some db.valid.checkpoints_device).mpr hmem
  · exact h

theorem checkpointOf_statements {qs : List Api.DbCall}
    (h : checkpointOf device (runEvents statement db qs) = some old) :
    checkpointOf device db = some old := by
  induction qs generalizing db with
  | nil =>
      exact h
  | cons q qs ih =>
      exact checkpointOf_statement (ih h)

end Statements

section Steps

variable {device : Uuid} {w : World}

/-- The billed amount after a successful call. -/
theorem account_billed {x : Delivery} {u : Db.PeerUsageCheckpoints.AccountedUsage}
    (hok : (deliver w.db x).2 = .ok u) (hdevice : x.observation.deviceId = device) :
    (w.account device x).billed =
      ⟨w.billed.serverRx + u.serverRxDelta, w.billed.serverTx + u.serverTxDelta⟩ := by
  simp only [World.account, hok, if_pos hdevice]

theorem account_billed_other {x : Delivery} (hdevice : x.observation.deviceId ≠ device) :
    (w.account device x).billed = w.billed := by
  simp only [World.account, if_neg hdevice]
  split
  · rfl
  · rfl

/-- A failed call changes nothing. -/
theorem account_error {x : Delivery} {e : Db.DbError} (herror : (deliver w.db x).2 = .error e)
    (hsame : delivered w.db x = w.db) : w.account device x = w := by
  simp only [World.account, herror, hsame]

/-- A call for another device. -/
theorem account_other {x : Delivery} (hdevice : x.observation.deviceId ≠ device)
    (h : BillingInv source device w) : BillingInv source device (w.account device x) := by
  constructor
  · unfold World.NotOverBilled
    rw [account_billed_other hdevice]
    exact h.fair
  · intro old hold
    rw [account_billed_other hdevice]
    refine h.traced old ?_
    rcases delivered_cases w.db x with ⟨_, _, hsame⟩ | ⟨u, _, haccount⟩
    · rw [← hold]
      exact congrArg _ hsame.symm
    · have hnext := checkpointOf_account (d := device) haccount
      rw [if_neg hdevice] at hnext
      rw [← hnext]
      exact hold

section Poll

variable {p : Poll}

/-- What a poll leaves of the reading behind a checkpoint. -/
theorem traced_poll (h : Traced source w.applied w.record old w.billed w.kernel c) (p : Poll) :
    Traced source w.applied (p.snapshot source w).1 old w.billed (p.atAccount w.kernel) c ∧
      ∀ snapshot, (p.snapshot source w).2 = .ok snapshot →
        c.Gone (p.atDump w.kernel) ∨
          c.Alive (p.atDump w.kernel) ∧ snapshot.sourceGeneration = old.sourceGeneration := by
  have hrun : Traced source w.applied w.record old w.billed (p.atAccount w.kernel) c :=
    (((h.run p.beforeDump).run p.afterDump).run p.afterGeneration).run p.beforeAccount
  have hdump : Traced source w.applied w.record old w.billed (p.atDump w.kernel) c :=
    h.run p.beforeDump
  rcases h.life with hgone | ⟨⟨i, q, halive⟩, hreports⟩
  · have hatDump : c.Gone (p.atDump w.kernel) := hgone.run h.before _
    refine ⟨⟨h.stands, hrun.before, h.rx, h.tx, Or.inl ?_⟩, fun _ _ => Or.inl hatDump⟩
    exact ((hatDump.run hdump.before _).run (hdump.before.run _) _).run
      ((hdump.before.run _).run _) _
  · -- the interface is the one of the reading when the poll begins
    rw [← halive.identity] at hreports
    have hknown : (p.snapshot source w).1 = w.record ∧
        ∀ snapshot, (p.snapshot source w).2 = .ok snapshot →
          snapshot.sourceGeneration = old.sourceGeneration :=
      snapshot_known halive.interface hreports
    rw [hknown.1]
    refine ⟨hrun, ?_⟩
    intro snapshot hsnapshot
    rcases hdump.life with hgone | ⟨halive', _⟩
    · exact Or.inl hgone
    · exact Or.inr ⟨halive', hknown.2 snapshot hsnapshot⟩

/-- The reading of a poll, from the dump to the end of the poll. -/
theorem traced_reading {snapshot : StatsSnapshot} {i : KernelInterface} {q : PeerStats}
    (hsnapshot : (p.snapshot source w).2 = .ok snapshot)
    (hi : (p.atDump w.kernel).interface = some i) (hq : i.peer = some q)
    {new : Checkpoint} {billed : Delta} (hnew : StandsFor new (.ofKernel (p.atDump w.kernel) i q))
    (hsource : new.sourceGeneration = snapshot.sourceGeneration)
    (hrx : billed.serverRx ≤ (p.atDump w.kernel).received)
    (htx : billed.serverTx ≤ (p.atDump w.kernel).sent) :
    Traced source w.applied (p.snapshot source w).1 new billed (p.atAccount w.kernel)
      (.ofKernel (p.atDump w.kernel) i q) := by
  have hbefore := Captured.before_ofKernel (p.atDump w.kernel) i q
  -- the generation belongs to the interface at the second fingerprint
  have hcheck : Traced source w.applied (p.snapshot source w).1 new billed (p.atCheck w.kernel)
      (.ofKernel (p.atDump w.kernel) i q) := by
    refine ⟨hnew, hbefore.run _, hrx, htx, ?_⟩
    rcases (Captured.alive_ofKernel hi hq).run hbefore p.afterDump with halive | hgone
    · refine Or.inr ⟨halive, ?_⟩
      obtain ⟨j, _, hj⟩ := halive
      rw [hsource, ← hj.identity]
      exact snapshot_reports hsnapshot hj.interface
    · exact Or.inl hgone
  exact (hcheck.run p.afterGeneration).run p.beforeAccount

theorem observationOf_eq_some {db : Db} {snapshot : StatsSnapshot} {at_ : Int} {a : Observation}
    (h : observationOf db snapshot at_ = some a) :
    ∃ q, snapshot.peer = some q ∧ Observes a q ∧
      a.sourceGeneration = snapshot.sourceGeneration := by
  unfold observationOf at h
  split at h
  · cases h
  · rename_i q hq
    split at h
    · cases h
    · split at h
      · cases h
        exact ⟨q, hq, ⟨rfl, rfl, rfl⟩, rfl⟩
      · cases h

theorem totals_atDump (p : Poll) (k : Kernel) :
    k.received ≤ (p.atDump k).received ∧ k.sent ≤ (p.atDump k).sent := totals_run k p.beforeDump

theorem totals_atAccount (p : Poll) (k : Kernel) :
    (p.atDump k).received ≤ (p.atAccount k).received ∧
      (p.atDump k).sent ≤ (p.atAccount k).sent := by
  have h₁ := totals_run (p.atDump k) p.afterDump
  have h₂ := totals_run (p.atCheck k) p.afterGeneration
  have h₃ := totals_run (p.atConfirm k) p.beforeAccount
  exact ⟨Nat.le_trans h₁.1 (Nat.le_trans h₂.1 h₃.1), Nat.le_trans h₁.2 (Nat.le_trans h₂.2 h₃.2)⟩

/-- A poll, up to its call of `account`. -/
theorem poll_before_account (h : BillingInv source device w) (p : Poll) (qs : List Api.DbCall) :
    BillingInv source device
      { w with
        kernel := p.atAccount w.kernel
        record := (p.snapshot source w).1
        db := runEvents statement w.db qs } := by
  obtain ⟨hrx, htx⟩ := h.fair
  obtain ⟨hrx₁, htx₁⟩ := totals_atDump p w.kernel
  obtain ⟨hrx₂, htx₂⟩ := totals_atAccount p w.kernel
  refine ⟨⟨?_, ?_⟩, ?_⟩
  · dsimp only
    omega
  · dsimp only
    omega
  · intro old hold
    obtain ⟨c, hc⟩ := h.traced old (checkpointOf_statements hold)
    exact ⟨c, (traced_poll hc p).1⟩

/-- A poll whose observation of the device is accounted. -/
theorem poll_account (h : BillingInv source device w) {snapshot : StatsSnapshot} {a : Observation}
    (hsnapshot : (p.snapshot source w).2 = .ok snapshot)
    (ha : observationOf w.db snapshot p.sampledAt = some a) (hdevice : a.deviceId = device) :
    BillingInv source device
      (World.account device
        { w with
          kernel := p.atAccount w.kernel
          record := (p.snapshot source w).1
          db := runEvents statement w.db p.meanwhile } ⟨a, p.available⟩) := by
  have hbase := poll_before_account h p p.meanwhile
  obtain ⟨q, hpeer, hobserves, hsource⟩ := observationOf_eq_some ha
  obtain ⟨i, hi, hq⟩ := Option.bind_eq_some_iff.mp ((snapshot_peer hsnapshot).symm.trans hpeer)
  obtain ⟨hrx, htx⟩ := h.fair
  obtain ⟨hrx₁, htx₁⟩ := totals_atDump p w.kernel
  obtain ⟨hrx₂, htx₂⟩ := totals_atAccount p w.kernel
  rcases delivered_cases (runEvents statement w.db p.meanwhile) ⟨a, p.available⟩ with
    ⟨e, herror, hsame⟩ | ⟨u, hok, haccount⟩
  · rw [account_error herror hsame]
    exact hbase
  obtain ⟨_, hdelta, _⟩ := account_eq_ok haccount
  have hurx : u.serverRxDelta = (a.deltaIn (runEvents statement w.db p.meanwhile)).serverRx :=
    congrArg Delta.serverRx hdelta
  have hutx : u.serverTxDelta = (a.deltaIn (runEvents statement w.db p.meanwhile)).serverTx :=
    congrArg Delta.serverTx hdelta
  have hnext := checkpointOf_account (d := device) haccount
  rw [if_pos hdevice] at hnext
  -- what the deltas are bounded by, and what the new checkpoint stands for
  have hbound : w.billed.serverRx + u.serverRxDelta ≤ (p.atDump w.kernel).received ∧
      w.billed.serverTx + u.serverTxDelta ≤ (p.atDump w.kernel).sent := by
    cases hold : checkpointOf device (runEvents statement w.db p.meanwhile) with
    | none =>
        simp only [Observation.deltaIn, hdevice, hold] at hurx hutx
        exact ⟨by omega, by omega⟩
    | some old =>
        simp only [Observation.deltaIn, hdevice, hold] at hurx hutx
        obtain ⟨c, hc⟩ := h.traced old (checkpointOf_statements hold)
        have hlife := (traced_poll hc p).2 snapshot hsnapshot
        rw [← hsource] at hlife
        have hbefore : c.Before (p.atDump w.kernel) := hc.before.run _
        obtain ⟨hdrx, hdtx⟩ := delta_le_traffic hobserves hc.stands hbefore hi hq hlife
        have hcrx := hc.rx
        have hctx := hc.tx
        exact ⟨by omega, by omega⟩
  have hnew : ∀ new : Checkpoint, Db.PeerUsageCheckpoints.Records new a →
      Traced source w.applied (p.snapshot source w).1 new
        ⟨w.billed.serverRx + u.serverRxDelta, w.billed.serverTx + u.serverTxDelta⟩
        (p.atAccount w.kernel) (.ofKernel (p.atDump w.kernel) i q) := by
    intro new hrecords
    refine traced_reading hsnapshot hi hq ⟨?_, ?_, ?_⟩ ?_ hbound.1 hbound.2
    · exact hrecords.publicKey.trans hobserves.publicKey
    · exact hrecords.serverRx.trans hobserves.rx
    · exact hrecords.serverTx.trans hobserves.tx
    · exact hrecords.sourceGeneration.trans hsource
  constructor
  · unfold World.NotOverBilled
    rw [account_billed hok hdevice]
    simp only [World.account]
    exact ⟨by omega, by omega⟩
  · intro new hstored
    rw [account_billed hok hdevice]
    have hnew' : checkpointOf device
        (delivered (runEvents statement w.db p.meanwhile) ⟨a, p.available⟩) = some new := hstored
    rw [hnext] at hnew'
    cases hold : checkpointOf device (runEvents statement w.db p.meanwhile) with
    | none =>
        simp only [hold, Option.some.injEq] at hnew'
        subst hnew'
        exact ⟨_, hnew _ (Db.PeerUsageCheckpoints.records_baseline a)⟩
    | some old =>
        simp only [hold] at hnew'
        split at hnew'
        · rename_i hstale
          injection hnew' with hsame
          subst hsame
          -- a stale observation adds nothing
          simp only [Observation.deltaIn, hdevice, hold, Observation.delta, hstale,
            Bool.or_true, if_true] at hurx hutx
          rw [hurx, hutx, add_zero, add_zero]
          exact hbase.traced old hold
        · cases hnew'
          exact ⟨_, hnew _ (Db.PeerUsageCheckpoints.records_successor a old)⟩

theorem poll_inv (h : BillingInv source device w) (p : Poll) :
    BillingInv source device (pollOnce device source w p) := by
  have hnothing := poll_before_account h p []
  unfold pollOnce
  dsimp only
  split
  · rename_i snapshot _ hsnapshot
    split
    · rename_i a ha
      by_cases hdevice : a.deviceId = device
      · exact poll_account h hsnapshot ha hdevice
      · exact account_other hdevice (poll_before_account h p p.meanwhile)
    · exact hnothing
  · exact hnothing

end Poll

/-- Every event keeps the invariant. -/
theorem billing_step (w : World) (e : WorldEvent) (h : BillingInv source device w) :
    BillingInv source device (worldStep device source w e) := by
  cases e with
  | kernel e =>
      refine ⟨?_, ?_⟩
      · obtain ⟨hrx, htx⟩ := h.fair
        obtain ⟨hr, hs⟩ := totals_step w.kernel e
        refine ⟨?_, ?_⟩
        · simp only [worldStep]
          omega
        · simp only [worldStep]
          omega
      · intro old hold
        obtain ⟨c, hc⟩ := h.traced old hold
        exact ⟨c, hc.run [e]⟩
  | apply serverPublicKey =>
      refine ⟨h.fair, ?_⟩
      intro old hold
      obtain ⟨c, hc⟩ := h.traced old hold
      refine ⟨c, hc.stands, hc.before, hc.rx, hc.tx, hc.life.imp_right ?_⟩
      rintro ⟨halive, hreports⟩
      exact ⟨halive, reports_apply serverPublicKey hreports⟩
  | poll p =>
      exact poll_inv h p
  | account x =>
      simp only [worldStep]
      split
      · exact h
      · rename_i hdevice
        exact account_other hdevice h
  | statement q =>
      refine ⟨h.fair, ?_⟩
      intro old hold
      exact h.traced old (checkpointOf_statement hold)

end Steps

section Main

/-- The beginning of a run: nothing was counted or billed yet. -/
def World.start (interface : Option KernelInterface) (applied : Option String)
    (record : Option GenerationRecord) (db : Db) : World where
  kernel := ⟨interface, 0, 0⟩
  applied := applied
  record := record
  db := db
  billed := ⟨0, 0⟩

/-- The books are in order: the device has no checkpoint, or there is no peer, or the
checkpoint is a reading of the present peer as it is. -/
def World.InOrder (source : StatsSource) (device : Uuid) (w : World) : Prop :=
  ∀ old, checkpointOf device w.db = some old →
    ∀ i p, w.kernel.interface = some i → i.peer = some p →
      old.publicKey = p.publicKey ∧ old.rawServerRxBytes = p.rxBytes ∧
        old.rawServerTxBytes = p.txBytes ∧
        reports source w.applied w.record i.identity = some old.sourceGeneration

theorem billingInv_start {device : Uuid} {interface : Option KernelInterface} {db : Db}
    (h : (World.start interface applied record db).InOrder source device) :
    BillingInv source device (World.start interface applied record db) := by
  refine ⟨⟨le_refl _, le_refl _⟩, ?_⟩
  intro old hold
  by_cases hpeer : ∃ i p, interface = some i ∧ i.peer = some p
  · obtain ⟨i, p, hi, hp⟩ := hpeer
    obtain ⟨hkey, hrx, htx, hreports⟩ := h old hold i p hi hp
    refine ⟨.ofKernel ⟨interface, 0, 0⟩ i p, ⟨hkey, hrx, htx⟩, Captured.before_ofKernel _ i p,
      le_refl _, le_refl _, Or.inr ⟨Captured.alive_ofKernel hi hp, hreports⟩⟩
  · -- nothing is left of the peer that the checkpoint was read from
    have hnonneg := db.valid.checkpoints_nonneg old (List.mem_of_find?_eq_some hold)
    refine ⟨⟨⟨0, "", 0⟩,
        ⟨old.publicKey, 0, old.rawServerRxBytes.toNat, old.rawServerTxBytes.toNat⟩, 0, 0⟩,
      ⟨rfl, ?_, ?_⟩, ⟨le_refl _, le_refl _⟩, le_refl _, le_refl _, Or.inl ?_⟩
    · exact (Int.toNat_of_nonneg hnonneg.2.1).symm
    · exact (Int.toNat_of_nonneg hnonneg.2.2).symm
    · intro i p hi hp
      exact absurd ⟨i, p, hi, hp⟩ hpeer

/--
Whatever the kernel does with the interface and the peers of a device, whatever
polls are skipped or fail at any point, and whatever the clock says: no more is
accounted for the device than really went through its peers.
-/
theorem never_over_billed (device : Uuid) (source : StatsSource)
    (interface : Option KernelInterface) (applied : Option String)
    (record : Option GenerationRecord) (db : Db) (es : List WorldEvent)
    (h : (World.start interface applied record db).InOrder source device) :
    Always (worldStep device source) World.NotOverBilled
      (World.start interface applied record db) es :=
  always_of_inv (BillingInv source device) billing_step (fun _ hw => hw.fair)
    (billingInv_start h) es

/-- A poll that nothing disturbs. -/
def samplePoll (draw : String) (sampledAt : Int) : WorldEvent :=
  .poll
    { beforeDump := [], afterDump := [], afterGeneration := [], beforeAccount := []
      fails := fun _ => false, draw := draw, answered := true, meanwhile := []
      sampledAt := sampledAt, available := true }

def sampleServerKey : String := "AQEBAQEBAQEBAQEBAQEBAQEBAQEBAQEBAQEBAQEBAQE="

/-- The host interface with the peer of the device 20. -/
def sampleWorld : World :=
  World.start
    (some
      { identity := ⟨1, "net:[4026531992]", 12⟩, publicKey := sampleServerKey
        peer := some ⟨"key", 1780272000, 1000, 2000⟩ })
    (some sampleServerKey) none Db.PeerUsageCheckpoints.ledgerDb

/-- The peer is added again between two polls, and then the interface is created
again and its counters overtake the old ones. -/
def sampleRun : List WorldEvent :=
  [ samplePoll "6ba7b810-9dad-41d1-80b4-00c04fd430c8" 1000000000,
    .kernel (.receive 100), samplePoll "6ba7b811-9dad-41d1-80b4-00c04fd430c8" 2000000000,
    .kernel .removePeer, .kernel (.addPeer "key"), .kernel (.handshake 1780272060),
    .kernel (.receive 30), samplePoll "6ba7b812-9dad-41d1-80b4-00c04fd430c8" 3000000000,
    .kernel .delete, .kernel (.create ⟨1, "net:[4026531992]", 13⟩ sampleServerKey),
    .kernel (.addPeer "key"), .kernel (.handshake 1780272120), .kernel (.receive 5000),
    samplePoll "6ba7b813-9dad-41d1-80b4-00c04fd430c8" 4000000000 ]

/-- The run above bills every byte once. -/
theorem never_over_billed_sample :
    Always (worldStep 20 .hostAgent) World.NotOverBilled sampleWorld sampleRun ∧
      (runEvents (worldStep 20 .hostAgent) sampleWorld sampleRun).billed = ⟨5130, 0⟩ ∧
      (runEvents (worldStep 20 .hostAgent) sampleWorld sampleRun).kernel.received = 5130 := by
  refine ⟨never_over_billed 20 .hostAgent _ _ _ _ sampleRun ?_, ?_, ?_⟩
  · intro old hold
    cases hold
  · decide
  · decide

end Main

end Invariant

end Worker
end ZeroVpn
