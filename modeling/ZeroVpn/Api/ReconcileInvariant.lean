import ZeroVpn.Api.Reconcile

/-!
# What reconciliation promises, and its invariant

`ReconcileSafe` is the promise and `CtlMeets` the condition on a run under which
it is kept.  The invariant has two parts.

* `World` speaks of the state that the processes share.  No request of the agent
  has a revision above the next one that `reconcile` would choose, and a request
  from a later snapshot has no lower revision; so the journal only moves on to
  later snapshots.
* A phase says what one process knows.  The holder of the lock keeps the
  database, its transaction and a stage; the others only know their last commit.
-/

namespace ZeroVpn

open Library
open HostAgent

namespace Api
namespace HostAgentController

open Db (Uuid Server)

/-- Different states have different digests, and no digest is the empty text. -/
structure CollisionFree (digest : DesiredState → String) : Prop where
  injective : Function.Injective digest
  nonempty : ∀ s, digest s ≠ ""

/-- The server that `reconcile` works for, when there is one, is `v`. -/
def FocusedOn (v : Uuid) (db : Db) : Prop :=
  ∀ server, activeServer db = .ok (some server) → server.id = v

/-- The candidate has the content that the database asks for. -/
def ComputedFrom (db : Db) (candidate : DesiredState) : Prop :=
  ∃ server, desired db = .ok (some (server, candidate.peers)) ∧
    server.publicKey = candidate.serverPublicKey

/-- The journal holds this revision and digest. -/
def Shows (digest : DesiredState → String) (journal : JournalFile) (revision : Nat)
    (d : String) : Prop :=
  ∃ applied, journal.load digest = .ok (some applied) ∧
    applied.state.revision = revision ∧ applied.digest = d

/-- The journal has the desired peers at the instant of the commit. -/
def InSync (digest : DesiredState → String) (c : Commit) : Prop :=
  ∃ applied server peers, c.journal.load digest = .ok (some applied) ∧
    desired c.db = .ok (some (server, peers)) ∧ applied.state.peers = peers

/-- An entry of the journal and the one before it. -/
def Advances (newer older : AppliedState × Nat) : Prop :=
  older.1.state.revision < newer.1.state.revision ∧ older.2 ≤ newer.2

section Property

variable {B Snapshot : Type}
variable (digest : DesiredState → String) (initial : JournalFile)

/-- What reconciliation promises in every state. -/
structure ReconcileSafe (p : CtlPool B Snapshot) : Prop where
  /-- The entries of the journal have increasing revisions and come from
  snapshots that do not get older. -/
  advances : p.shared.history.IsChain Advances
  /-- The journal is the last entry. -/
  current : ∀ applied, p.shared.agents.shared.journal.load digest = .ok (some applied) →
    ∃ version rest, p.shared.history = (applied, version) :: rest
  /-- An entry was computed from the snapshot of its version, or was there from
  the beginning. -/
  computed : ∀ applied version, (applied, version) ∈ p.shared.history →
    ComputedFrom (p.shared.dbAt version) applied.state ∨
      initial.load digest = .ok (some applied)
  /-- A `reconcile` that found a server and returned `Ok` did so with the desired
  peers in the journal. -/
  returned : ∀ i outcome, p.threads[i]? = some ((), some (.ret (.ok outcome))) →
    outcome ≠ .noServer → ∃ c, p.shared.lastCommit i = some c ∧ InSync digest c
  /-- A row that is committed as applied shows what the journal held. -/
  recorded : ∀ c ∈ p.shared.commits, ∀ id row, c.table id = some row →
    row.status = .applied → Shows digest c.journal row.appliedRevision row.appliedDigest
  /-- The table is that of the last commit. -/
  committed : ∀ id row, p.shared.table id = some row →
    ∃ c rest, p.shared.commits = c :: rest ∧ c.table = p.shared.table

end Property

section Condition

variable {B Snapshot : Type}
variable (digest : DesiredState → String)

/-- A `reconcile` has read a status that matches its row and has not ended yet. -/
def CtlSys.skipping (s : CtlSys B Snapshot) : Bool :=
  match s.tx with
  | none => false
  | some tx =>
      match tx.seen, desired s.db with
      | some (revision, d), .ok (some (server, peers)) =>
          match tx.table server.id with
          | some row => upToDate row (digest ⟨0, server.publicKey, peers⟩) revision d
          | none => false
      | _, _ => false

/-- The condition on the events of a run: the writers leave the server in place,
and the agent does not write the journal while a `reconcile` skips. -/
def CtlMeets (v : Uuid) (p : CtlPool B Snapshot) : CtlEvent → Prop
  | .api _ => True
  | .write change => FocusedOn v (change p.shared.db)
  | .agent e => p.shared.skipping digest = true → writtenBy p.shared.agents e = none

end Condition

section World

variable {B Snapshot : Type}

/-- An apply that was sent to the agent. -/
def Sent (s : CtlSys B Snapshot) (r : Nat) (candidate : DesiredState) : Prop :=
  s.agents.request r = some (.applyState candidate)

def rowRevision (v : Uuid) (table : ReconcileTable) : Nat :=
  ((table v).map ReconcileRow.desiredRevision).getD 0

variable (digest : DesiredState → String)

def journalRevision (journal : JournalFile) : Nat :=
  match journal.load digest with
  | .ok (some applied) => applied.state.revision
  | _ => 0

/-- The hashes of a row belong to one content. -/
def Described (row : ReconcileRow) : Prop :=
  row.desiredContentHash = "" ∨ ∃ key peers,
    row.desiredContentHash = digest ⟨0, key, peers⟩ ∧
      row.desiredDigest = digest ⟨row.desiredRevision, key, peers⟩

/-- A table has no row but that of the server. -/
structure TableOk (v : Uuid) (table : ReconcileTable) : Prop where
  only : ∀ id row, table id = some row → id = v
  described : ∀ row, table v = some row → Described digest row

/-- What holds of the applies that were sent. -/
structure RequestsOk (v : Uuid) (s : CtlSys B Snapshot) : Prop where
  /-- The next revision is no smaller than that of any request. -/
  bounded : ∀ r c, Sent s r c →
    c.revision ≤ max (rowRevision v s.table) (journalRevision digest s.agents.shared.journal) + 1
  dated : ∀ r c, Sent s r c → s.sentFrom r ≤ s.version
  computed : ∀ r c, Sent s r c → ComputedFrom (s.dbAt (s.sentFrom r)) c
  ordered : ∀ r r' c c', Sent s r c → Sent s r' c' → s.sentFrom r < s.sentFrom r' →
    c.revision ≤ c'.revision

/-- What holds of the entries of the journal. -/
structure HistoryOk (initial : JournalFile) (s : CtlSys B Snapshot) : Prop where
  advances : s.history.IsChain Advances
  computed : ∀ applied version, (applied, version) ∈ s.history →
    ComputedFrom (s.dbAt version) applied.state ∨ initial.load digest = .ok (some applied)
  dated : ∀ applied version, (applied, version) ∈ s.history → version ≤ s.version
  current : ∀ applied, s.agents.shared.journal.load digest = .ok (some applied) →
    ∃ version rest, s.history = (applied, version) :: rest
  top : ∀ applied version rest, s.history = (applied, version) :: rest →
    s.agents.shared.journal.load digest = .ok (some applied) ∧
      ∀ r c, Sent s r c → s.sentFrom r < version → c.revision ≤ applied.state.revision

/-- What holds of the commits. -/
structure CommitsOk (s : CtlSys B Snapshot) : Prop where
  recorded : ∀ c ∈ s.commits, ∀ id row, c.table id = some row →
    row.status = .applied → Shows digest c.journal row.appliedRevision row.appliedDigest
  committed : ∀ id row, s.table id = some row →
    ∃ c rest, s.commits = c :: rest ∧ c.table = s.table

/-- What holds of the state that the processes share. -/
structure World (backend : HostBackend B Snapshot) (v : Uuid) (initial : JournalFile)
    (s : CtlSys B Snapshot) : Prop where
  agents : AgentInv backend digest s.agents
  released : Released digest s.agents.shared
  focused : FocusedOn v s.db
  snapshot : s.dbAt s.version = s.db
  requests : RequestsOk digest v s
  history : HistoryOk digest initial s
  table : TableOk digest v s.table
  commits : CommitsOk digest s

variable {digest} {backend : HostBackend B Snapshot} {v : Uuid} {initial : JournalFile}
variable {s : CtlSys B Snapshot}

/-- The transaction is not part of the world. -/
theorem World.setTx (h : World digest backend v initial s) (tx : Option Tx) :
    World digest backend v initial { s with tx := tx } where
  agents := h.agents
  released := h.released
  focused := h.focused
  snapshot := h.snapshot
  requests := ⟨h.requests.bounded, h.requests.dated, h.requests.computed, h.requests.ordered⟩
  history := ⟨h.history.advances, h.history.computed, h.history.dated, h.history.current,
    h.history.top⟩
  table := h.table
  commits := ⟨h.commits.recorded, h.commits.committed⟩

theorem sent_send {candidate c : DesiredState} {r : Nat} :
    Sent (s.send backend digest candidate) r c ↔
      (r = s.agents.threads.length ∧ c = candidate) ∨ Sent s r c := by
  have hrequest : Sent (s.send backend digest candidate) r c ↔
      (if r = s.agents.threads.length then some (AgentRequest.applyState candidate)
        else s.agents.request r) = some (.applyState c) := by
    rw [← request_spawn (agentSystem backend digest)]
    rfl
  rw [hrequest]
  by_cases hr : r = s.agents.threads.length
  · subst hr
    simp [Sent, request_length, eq_comm]
  · simp [Sent, hr]

theorem sent_lt {c : DesiredState} {r : Nat} (h : Sent s r c) :
    r ≠ s.agents.threads.length := by
  rintro rfl
  rw [Sent, request_length] at h
  cases h

theorem sentFrom_send (candidate : DesiredState) :
    (s.send backend digest candidate).sentFrom s.agents.threads.length = s.version :=
  Function.update_self ..

theorem sentFrom_send_of_sent {candidate c : DesiredState} {r : Nat} (h : Sent s r c) :
    (s.send backend digest candidate).sentFrom r = s.sentFrom r :=
  Function.update_of_ne (sent_lt h) ..

/-- A candidate from the current snapshot whose revision bounds all requests. -/
theorem World.send (h : World digest backend v initial s) {candidate : DesiredState}
    (hcomputed : ComputedFrom s.db candidate)
    (habove : ∀ r c, Sent s r c → c.revision ≤ candidate.revision)
    (hnext : candidate.revision ≤
      max (rowRevision v s.table) (journalRevision digest s.agents.shared.journal) + 1) :
    World digest backend v initial (s.send backend digest candidate) where
  agents := agentInv_step s.agents _ h.agents
  released := released_step h.agents h.released _
  focused := h.focused
  snapshot := h.snapshot
  requests := by
    constructor
    case bounded =>
      intro r c hsent
      rcases sent_send.mp hsent with ⟨_, rfl⟩ | hold
      · exact hnext
      · exact h.requests.bounded r c hold
    case dated =>
      intro r c hsent
      rcases sent_send.mp hsent with ⟨rfl, _⟩ | hold
      · rw [sentFrom_send]
        exact Nat.le_refl _
      · rw [sentFrom_send_of_sent hold]
        exact h.requests.dated r c hold
    case computed =>
      intro r c hsent
      rcases sent_send.mp hsent with ⟨rfl, rfl⟩ | hold
      · rw [sentFrom_send]
        exact h.snapshot.symm ▸ hcomputed
      · rw [sentFrom_send_of_sent hold]
        exact h.requests.computed r c hold
    case ordered =>
      intro r r' c c' hsent hsent' hlt
      rcases sent_send.mp hsent with ⟨rfl, rfl⟩ | hold
      · -- nothing was sent from a later snapshot
        rcases sent_send.mp hsent' with ⟨rfl, _⟩ | hold'
        · exact absurd hlt (Nat.lt_irrefl _)
        · rw [sentFrom_send, sentFrom_send_of_sent hold'] at hlt
          have hdated := h.requests.dated r' c' hold'
          omega
      · rcases sent_send.mp hsent' with ⟨_, rfl⟩ | hold'
        · exact habove r c hold
        · rw [sentFrom_send_of_sent hold, sentFrom_send_of_sent hold'] at hlt
          exact h.requests.ordered r r' c c' hold hold' hlt
  history := by
    refine ⟨h.history.advances, h.history.computed, h.history.dated, h.history.current, ?_⟩
    intro applied version rest hhistory
    obtain ⟨hload, htop⟩ := h.history.top applied version rest hhistory
    refine ⟨hload, ?_⟩
    intro r c hsent hlt
    rcases sent_send.mp hsent with ⟨rfl, _⟩ | hold
    · rw [sentFrom_send] at hlt
      have hdated := h.history.dated applied version (hhistory ▸ List.mem_cons_self)
      omega
    · rw [sentFrom_send_of_sent hold] at hlt
      exact htop r c hold hlt
  table := h.table
  commits := ⟨h.commits.recorded, h.commits.committed⟩

/-- A commit of rows that show the journal. -/
theorem World.commit (h : World digest backend v initial s) {tx : Tx}
    (htable : TableOk digest v tx.table)
    (hgrows : rowRevision v s.table ≤ rowRevision v tx.table)
    (hshows : ∀ row, tx.table v = some row → row.status = .applied →
      Shows digest s.agents.shared.journal row.appliedRevision row.appliedDigest) :
    World digest backend v initial (s.commit tx) where
  agents := h.agents
  released := h.released
  focused := h.focused
  snapshot := h.snapshot
  requests := by
    refine ⟨?_, h.requests.dated, h.requests.computed, h.requests.ordered⟩
    intro r c hsent
    have hbounded := h.requests.bounded r c hsent
    have hgoal : c.revision ≤
        max (rowRevision v tx.table) (journalRevision digest s.agents.shared.journal) + 1 := by
      omega
    exact hgoal
  history := ⟨h.history.advances, h.history.computed, h.history.dated, h.history.current,
    h.history.top⟩
  table := htable
  commits := by
    constructor
    case recorded =>
      intro c hc id row hrow happlied
      rcases List.mem_cons.mp hc with rfl | hold
      · have hid : id = v := htable.only id row hrow
        subst hid
        exact hshows row hrow happlied
      · exact h.commits.recorded c hold id row hrow happlied
    case committed =>
      intro id row _
      exact ⟨_, _, rfl, rfl⟩

/-- The commit of a writer. -/
theorem World.write (h : World digest backend v initial s) {change : Db → Db}
    (hfocused : FocusedOn v (change s.db)) :
    World digest backend v initial (s.write change) := by
  unfold CtlSys.write
  split
  · have hdbAt : ∀ n, n ≤ s.version →
        Function.update s.dbAt (s.version + 1) (change s.db) n = s.dbAt n := by
      intro n hn
      exact Function.update_of_ne (by omega) ..
    refine ⟨h.agents, h.released, hfocused, Function.update_self .., ?_, ?_, h.table,
      ⟨h.commits.recorded, h.commits.committed⟩⟩
    · refine ⟨h.requests.bounded, ?_, ?_, h.requests.ordered⟩
      · intro r c hsent
        exact Nat.le_succ_of_le (h.requests.dated r c hsent)
      · intro r c hsent
        have hcomputed := h.requests.computed r c hsent
        rw [← hdbAt _ (h.requests.dated r c hsent)] at hcomputed
        exact hcomputed
    · refine ⟨h.history.advances, ?_, ?_, h.history.current, h.history.top⟩
      · intro applied version hmem
        have hcomputed := h.history.computed applied version hmem
        rw [← hdbAt _ (h.history.dated applied version hmem)] at hcomputed
        exact hcomputed
      · intro applied version hmem
        exact Nat.le_succ_of_le (h.history.dated applied version hmem)
  · exact h

theorem sent_agentStep (e : AgentEvent) {r : Nat} {c : DesiredState} :
    Sent (s.agentStep backend digest e) r c ↔ Sent s r c := by
  have hkeep : ∀ e' : PoolEvent AgentRequest Unit, (∀ t, e' ≠ .spawn t) →
      ((poolStep (agentSystem backend digest) s.agents e').request r =
        some (.applyState c) ↔ Sent s r c) := by
    intro e' he'
    rw [request_keep _ _ he']
    exact Iff.rfl
  cases e with
  | restore =>
      show (poolStep (agentSystem backend digest) s.agents (.spawn .restore)).request r =
        some (.applyState c) ↔ Sent s r c
      rw [request_spawn]
      by_cases hr : r = s.agents.threads.length
      · subst hr
        simp [Sent, request_length]
      · rw [if_neg hr]
        exact Iff.rfl
  | step i ok =>
      exact hkeep (.step i ok) fun t ht => by cases ht
  | crash i =>
      exact hkeep (.crash i) fun t ht => by cases ht
  | reboot =>
      exact hkeep (.restart ()) fun t ht => by cases ht

/-- An event that is not a write keeps the journal. -/
theorem journal_agentStep {e : AgentEvent} (hquiet : writtenBy s.agents e = none) :
    (s.agentStep backend digest e).agents.shared.journal = s.agents.shared.journal := by
  rcases @writesJournal B Snapshot backend digest s.agents e.toPool with
    hsame | ⟨i, t, applied, he, hnext, _⟩
  · exact hsame
  · cases e with
    | step r ok =>
        cases he
        simp [writtenBy, hnext] at hquiet
    | restore | crash _ | reboot =>
        cases he

/-- A write puts an accepted candidate into the journal. -/
structure Writes (digest : DesiredState → String) (s t : CtlSys B Snapshot) (r : Nat)
    (c : DesiredState) : Prop where
  sent : Sent s r c
  load : t.agents.shared.journal.load digest = .ok (some (HostAgent.entryOf digest c))
  history : t.history = (HostAgent.entryOf digest c, s.sentFrom r) :: s.history
  above : journalRevision digest s.agents.shared.journal < c.revision

theorem agentStep_writes (h : AgentInv backend digest s.agents) {e : AgentEvent} {r : Nat}
    {applied : AppliedState} (hwrite : writtenBy s.agents e = some (r, applied)) :
    ∃ c, applied = HostAgent.entryOf digest c ∧
      Writes digest s (s.agentStep backend digest e) r c := by
  have hnext : e = .step r true ∧ ∃ t, nextCall s.agents r = some (t, .persist applied) := by
    unfold writtenBy at hwrite
    split at hwrite
    · split at hwrite
      · rename_i t applied' hnext
        cases hwrite
        exact ⟨rfl, t, hnext⟩
      · cases hwrite
    · cases hwrite
  obtain ⟨rfl, t, hnext⟩ := hnext
  obtain ⟨⟨hreadable, previous, hload, hgrows, _⟩, c, rfl, rfl⟩ :=
    (journalOk_of_inv h).written r t applied hnext
  obtain ⟨k, hk⟩ := nextCall_eq_some hnext
  refine ⟨c, rfl, request_of_nextCall hnext, ?_, ?_, ?_⟩
  · have hjournal : (s.agentStep backend digest (.step r true)).agents.shared.journal =
        .holds (HostAgent.entryOf digest c) := by
      simp only [CtlSys.agentStep, AgentEvent.toPool, poolStep, hk]
      rfl
    rw [hjournal]
    exact hreadable
  · simp only [CtlSys.agentStep, hwrite]
  · have hgrows' : priorRevision previous < c.revision := hgrows
    rw [journalRevision, hload]
    cases previous with
    | none =>
        exact hgrows'
    | some old =>
        exact hgrows'

theorem journalRevision_of_load {journal : JournalFile} {applied : AppliedState}
    (h : journal.load digest = .ok (some applied)) :
    journalRevision digest journal = applied.state.revision := by
  rw [journalRevision, h]

/-- The revision of the journal does not fall. -/
theorem journalRevision_agentStep (h : AgentInv backend digest s.agents) (e : AgentEvent) :
    journalRevision digest s.agents.shared.journal ≤
      journalRevision digest (s.agentStep backend digest e).agents.shared.journal := by
  cases hwrite : writtenBy s.agents e with
  | none =>
      rw [journal_agentStep hwrite]
  | some w =>
      obtain ⟨c, _, hwrites⟩ := agentStep_writes h hwrite
      rw [journalRevision_of_load hwrites.load]
      exact Nat.le_of_lt hwrites.above

/-- A write keeps the order of the entries: a request from an older snapshot has
no higher revision than the last entry. -/
theorem HistoryOk.writes (h : World digest backend v initial s) {t : CtlSys B Snapshot}
    {r : Nat} {c : DesiredState} (hw : Writes digest s t r c)
    (hsent : ∀ r c, Sent t r c ↔ Sent s r c) (hfrom : t.sentFrom = s.sentFrom)
    (hversion : t.version = s.version) (hdbAt : t.dbAt = s.dbAt) :
    HistoryOk digest initial t := by
  constructor
  case advances =>
    rw [hw.history]
    cases hold : s.history with
    | nil =>
        exact List.IsChain.singleton _
    | cons top rest =>
        obtain ⟨applied, version⟩ := top
        obtain ⟨hload, htop⟩ := h.history.top applied version rest hold
        have habove := hw.above
        rw [journalRevision_of_load hload] at habove
        refine List.isChain_cons_cons.mpr ⟨⟨habove, ?_⟩, hold ▸ h.history.advances⟩
        by_contra hlt
        have hle := htop r c hw.sent (Nat.lt_of_not_le hlt)
        omega
  case computed =>
    intro applied version hmem
    rw [hdbAt]
    rw [hw.history] at hmem
    rcases List.mem_cons.mp hmem with heq | hold
    · cases heq
      exact Or.inl (h.requests.computed r c hw.sent)
    · exact h.history.computed applied version hold
  case dated =>
    intro applied version hmem
    rw [hversion]
    rw [hw.history] at hmem
    rcases List.mem_cons.mp hmem with heq | hold
    · cases heq
      exact h.requests.dated r c hw.sent
    · exact h.history.dated applied version hold
  case current =>
    intro applied hload
    rw [hw.load] at hload
    cases hload
    exact ⟨_, _, hw.history⟩
  case top =>
    intro applied version rest hhistory
    rw [hw.history] at hhistory
    cases hhistory
    refine ⟨hw.load, ?_⟩
    intro r' c' hsent' hlt
    rw [hfrom] at hlt
    exact h.requests.ordered r' r c' c ((hsent r' c').mp hsent') hw.sent hlt

theorem HistoryOk.keeps (h : HistoryOk digest initial s) {t : CtlSys B Snapshot}
    (hjournal : t.agents.shared.journal = s.agents.shared.journal)
    (hhistory : t.history = s.history) (hsent : ∀ r c, Sent t r c ↔ Sent s r c)
    (hfrom : t.sentFrom = s.sentFrom) (hversion : t.version = s.version)
    (hdbAt : t.dbAt = s.dbAt) : HistoryOk digest initial t := by
  constructor
  case advances =>
    exact hhistory ▸ h.advances
  case computed =>
    rw [hhistory, hdbAt]
    exact h.computed
  case dated =>
    rw [hhistory, hversion]
    exact h.dated
  case current =>
    rw [hjournal, hhistory]
    exact h.current
  case top =>
    rw [hjournal, hhistory, hfrom]
    intro applied version rest heq
    obtain ⟨hload, htop⟩ := h.top applied version rest heq
    exact ⟨hload, fun r c hr => htop r c ((hsent r c).mp hr)⟩

/-- An event of the agent. -/
theorem World.agentStep (h : World digest backend v initial s) (e : AgentEvent) :
    World digest backend v initial (s.agentStep backend digest e) where
  agents := agentInv_step s.agents _ h.agents
  released := released_step h.agents h.released _
  focused := h.focused
  snapshot := h.snapshot
  requests := by
    constructor
    case bounded =>
      intro r c hsent
      have hbounded := h.requests.bounded r c ((sent_agentStep e).mp hsent)
      have hgrows := journalRevision_agentStep h.agents e
      have htable : (s.agentStep backend digest e).table = s.table := rfl
      rw [htable]
      omega
    case dated =>
      intro r c hsent
      exact h.requests.dated r c ((sent_agentStep e).mp hsent)
    case computed =>
      intro r c hsent
      exact h.requests.computed r c ((sent_agentStep e).mp hsent)
    case ordered =>
      intro r r' c c' hsent hsent'
      exact h.requests.ordered r r' c c' ((sent_agentStep e).mp hsent)
        ((sent_agentStep e).mp hsent')
  history := by
    cases hwrite : writtenBy s.agents e with
    | none =>
        have hhistory : (s.agentStep backend digest e).history = s.history := by
          simp only [CtlSys.agentStep, hwrite]
        exact h.history.keeps (journal_agentStep hwrite) hhistory
          (fun _ _ => sent_agentStep e) rfl rfl rfl
    | some w =>
        obtain ⟨c, _, hw⟩ := agentStep_writes h.agents hwrite
        exact HistoryOk.writes h hw (fun _ _ => sent_agentStep e) rfl rfl rfl
  table := h.table
  commits := ⟨h.commits.recorded, h.commits.committed⟩

end World

section Phases

variable {B Snapshot : Type}
variable (digest : DesiredState → String)

/-- Neither the journal nor a request is beyond this revision. -/
structure Bounded (s : CtlSys B Snapshot) (n : Nat) : Prop where
  requests : ∀ r c, Sent s r c → c.revision ≤ n
  journal : journalRevision digest s.agents.shared.journal ≤ n

/-- What the holder of the lock knows. -/
inductive Stage where
  /-- It has not chosen a revision. -/
  | fresh
  | unsure
  /-- The next revision is this one. -/
  | asked (n : Nat)
  /-- The candidate was sent. -/
  | sent (r : Nat) (candidate : DesiredState)
  /-- The journal is this one until the transaction ends. -/
  | settled (applied : AppliedState)

def Stage.Holds (v : Uuid) (s : CtlSys B Snapshot) (tx : Tx) : Stage → Prop
  | fresh => rowRevision v tx.table = rowRevision v s.table
  | unsure => True
  | asked n => Bounded digest s n ∧
      n ≤ max (rowRevision v s.table) (journalRevision digest s.agents.shared.journal) + 1
  | sent r candidate => Sent s r candidate ∧ Bounded digest s candidate.revision
  | settled applied => s.agents.shared.journal.load digest = .ok (some applied) ∧
      (s.skipping digest = true ∨ Bounded digest s applied.state.revision)

/-- What a process knows. -/
inductive CtlPhase where
  | outside
  | holding (db : Db) (tx : Tx) (stage : Stage)
  | finished (c : Commit)

/-- Process `i` does not hold the lock. -/
def Free (s : CtlSys B Snapshot) (i : Nat) : Prop := ∀ tx, s.tx = some tx → tx.holder ≠ i

/-- Process `i` holds the lock. -/
structure Holding (v : Uuid) (s : CtlSys B Snapshot) (i : Nat) (db : Db) (tx : Tx)
    (stage : Stage) : Prop where
  db_eq : s.db = db
  tx_eq : s.tx = some tx
  holder : tx.holder = i
  table : TableOk digest v tx.table
  grows : rowRevision v s.table ≤ rowRevision v tx.table
  stage : stage.Holds digest v s tx

/-- A phase is true of the shared state. -/
def CtlPhase.Fits (v : Uuid) (s : CtlSys B Snapshot) (i : Nat) : CtlPhase → Prop
  | outside => Free s i
  | holding db tx stage => Holding digest v s i db tx stage
  | finished c => Free s i ∧ s.lastCommit i = some c

/-- The invariant of the pool of processes. -/
structure CtlInv (backend : HostBackend B Snapshot) (v : Uuid) (initial : JournalFile)
    (s : CtlSys B Snapshot) (μ : Nat → CtlPhase) : Prop where
  world : World digest backend v initial s
  fits : ∀ i, (μ i).Fits digest v s i

variable {digest} {backend : HostBackend B Snapshot} {v : Uuid} {initial : JournalFile}
variable {s : CtlSys B Snapshot} {μ : Nat → CtlPhase} {i : Nat} {db : Db} {tx : Tx}
variable {stage : Stage}

theorem CtlInv.holding (h : CtlInv digest backend v initial s μ)
    (hi : μ i = .holding db tx stage) : Holding digest v s i db tx stage := by
  have hfits := h.fits i
  rw [hi] at hfits
  exact hfits

theorem CtlInv.stay (h : CtlInv digest backend v initial s μ) {m : CtlPhase} (hi : μ i = m) :
    CtlInv digest backend v initial s (Function.update μ i m) := by
  rw [← hi, Function.update_eq_self]
  exact h

/-- While `i` holds the lock the others only know their last commit. -/
theorem CtlPhase.fits_of_other {m : CtlPhase} {j : Nat} (h : m.Fits digest v s j)
    {t : CtlSys B Snapshot} (hlock : s.tx = some tx) (hj : tx.holder ≠ j) (hfree : Free t j)
    (hcommit : t.lastCommit j = s.lastCommit j) : m.Fits digest v t j := by
  cases m with
  | outside =>
      exact hfree
  | finished c =>
      exact ⟨hfree, hcommit.trans h.2⟩
  | holding db tx' stage =>
      have hsame : some tx = some tx' := hlock.symm.trans h.tx_eq
      cases hsame
      exact absurd h.holder hj

/-- The holder of the lock changes its transaction. -/
theorem CtlInv.onTx (h : CtlInv digest backend v initial s μ)
    (hi : μ i = .holding db tx stage) {f : Tx → Tx} {stage' : Stage}
    (hholder : (f tx).holder = i) (htable : TableOk digest v (f tx).table)
    (hgrows : rowRevision v s.table ≤ rowRevision v (f tx).table)
    (hstage : stage'.Holds digest v { s with tx := some (f tx) } (f tx)) :
    CtlInv digest backend v initial (s.onTx i f)
      (Function.update μ i (.holding db (f tx) stage')) := by
  have hheld := h.holding hi
  have hs : s.onTx i f = { s with tx := some (f tx) } := by
    simp only [CtlSys.onTx, hheld.tx_eq, Option.map_some, if_pos hheld.holder]
  rw [hs]
  refine ⟨h.world.setTx _, ?_⟩
  intro j
  by_cases hj : j = i
  · subst hj
    rw [Function.update_self]
    exact ⟨hheld.db_eq, rfl, hholder, htable, hgrows, hstage⟩
  · rw [Function.update_of_ne hj]
    refine CtlPhase.fits_of_other (h.fits j) hheld.tx_eq ?_ ?_ rfl
    · rw [hheld.holder]
      exact Ne.symm hj
    · intro tx' htx'
      cases htx'
      rw [hholder]
      exact Ne.symm hj

/-- A process without the lock is not affected by the end of a transaction. -/
theorem CtlInv.rollback (h : CtlInv digest backend v initial s μ) {m : CtlPhase}
    (hm : m = .outside ∨ ∃ c, m = .finished c ∧ μ i = .finished c) :
    CtlInv digest backend v initial (s.rollback i) (Function.update μ i m) := by
  refine ⟨h.world.setTx _, ?_⟩
  have hfree : Free (s.rollback i) i := by
    intro tx htx
    simp only [CtlSys.rollback, Option.filter_eq_some_iff, decide_eq_true_eq] at htx
    exact htx.2
  intro j
  by_cases hj : j = i
  · subst hj
    rw [Function.update_self]
    rcases hm with rfl | ⟨c, rfl, hc⟩
    · exact hfree
    · have hfits := h.fits j
      rw [hc] at hfits
      exact ⟨hfree, hfits.2⟩
  · rw [Function.update_of_ne hj]
    have hj' := h.fits j
    cases hphase : μ j with
    | outside =>
        rw [hphase] at hj'
        intro tx htx
        exact hj' tx (Option.filter_eq_some_iff.mp htx).1
    | finished c =>
        rw [hphase] at hj'
        refine ⟨?_, hj'.2⟩
        intro tx htx
        exact hj'.1 tx (Option.filter_eq_some_iff.mp htx).1
    | holding db tx stage =>
        rw [hphase] at hj'
        have hkeep : s.rollback i = s := by
          have htx : s.tx.filter (fun tx => tx.holder ≠ i) = s.tx := by
            rw [hj'.tx_eq]
            simp [hj'.holder, hj]
          show { s with tx := s.tx.filter fun tx => tx.holder ≠ i } = s
          rw [htx]
        rw [hkeep]
        exact hj'

/-- The commit of a writer, which needs the lock. -/
theorem CtlInv.write (h : CtlInv digest backend v initial s μ) {change : Db → Db}
    (hfocused : FocusedOn v (change s.db)) :
    CtlInv digest backend v initial (s.write change) μ := by
  refine ⟨h.world.write hfocused, ?_⟩
  unfold CtlSys.write
  split
  · rename_i hnone
    rw [Option.isNone_iff_eq_none] at hnone
    intro j
    have hfits := h.fits j
    cases hphase : μ j with
    | outside =>
        rw [hphase] at hfits
        exact hfits
    | finished c =>
        rw [hphase] at hfits
        exact hfits
    | holding db tx stage =>
        rw [hphase] at hfits
        cases hnone.symm.trans hfits.tx_eq
  · exact h.fits

/-- A bound of the requests is a bound of what they write. -/
theorem Bounded.agentStep (h : AgentInv backend digest s.agents) {n : Nat}
    (hbounded : Bounded digest s n) (e : AgentEvent) :
    Bounded digest (s.agentStep backend digest e) n := by
  constructor
  case requests =>
    intro r c hsent
    exact hbounded.requests r c ((sent_agentStep e).mp hsent)
  case journal =>
    cases hwrite : writtenBy s.agents e with
    | none =>
        rw [journal_agentStep hwrite]
        exact hbounded.journal
    | some w =>
        obtain ⟨c, _, hw⟩ := agentStep_writes h hwrite
        rw [journalRevision_of_load hw.load]
        exact hbounded.requests _ c hw.sent

theorem Stage.Holds.agentStep (h : AgentInv backend digest s.agents) {e : AgentEvent}
    (hquiet : s.skipping digest = true → writtenBy s.agents e = none)
    (hstage : stage.Holds digest v s tx) :
    stage.Holds digest v (s.agentStep backend digest e) tx := by
  cases stage with
  | fresh =>
      exact hstage
  | unsure =>
      trivial
  | asked n =>
      obtain ⟨hbounded, hnext⟩ := hstage
      refine ⟨hbounded.agentStep h e, ?_⟩
      have hgrows := journalRevision_agentStep h e
      have htable : (s.agentStep backend digest e).table = s.table := rfl
      rw [htable]
      omega
  | sent r candidate =>
      exact ⟨(sent_agentStep e).mpr hstage.1, hstage.2.agentStep h e⟩
  | settled applied =>
      obtain ⟨hload, hcalm⟩ := hstage
      cases hwrite : writtenBy s.agents e with
      | none =>
          rw [Stage.Holds, journal_agentStep hwrite]
          exact ⟨hload, hcalm.imp id fun hbounded => hbounded.agentStep h e⟩
      | some w =>
          -- a write is either excluded or would need a higher revision
          obtain ⟨c, _, hw⟩ := agentStep_writes h hwrite
          rcases hcalm with hskip | hbounded
          · rw [hquiet hskip] at hwrite
            cases hwrite
          · have hle := hbounded.requests _ c hw.sent
            have habove := hw.above
            rw [journalRevision_of_load hload] at habove
            omega

/-- An event of the agent. -/
theorem CtlInv.agentStep (h : CtlInv digest backend v initial s μ) {e : AgentEvent}
    (hquiet : s.skipping digest = true → writtenBy s.agents e = none) :
    CtlInv digest backend v initial (s.agentStep backend digest e) μ := by
  refine ⟨h.world.agentStep e, ?_⟩
  intro j
  have hfits := h.fits j
  cases hphase : μ j with
  | outside =>
      rw [hphase] at hfits
      exact hfits
  | finished c =>
      rw [hphase] at hfits
      exact hfits
  | holding db tx stage =>
      rw [hphase] at hfits
      exact ⟨hfits.db_eq, hfits.tx_eq, hfits.holder, hfits.table, hfits.grows,
        hfits.stage.agentStep h.world.agents hquiet⟩

/-- All processes die. -/
theorem CtlInv.restart (h : CtlInv digest backend v initial s μ) :
    CtlInv digest backend v initial { s with tx := none } fun _ => .outside := by
  refine ⟨h.world.setTx none, ?_⟩
  intro j tx htx
  cases htx

end Phases

end HostAgentController
end Api
end ZeroVpn
