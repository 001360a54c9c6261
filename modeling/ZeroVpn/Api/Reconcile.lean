import ZeroVpn.Api.HostAgentController
import ZeroVpn.HostAgent.JournalInvariant

/-!
# Reconciliation of the host agent

`HostAgentController::reconcile` of
`crates/zerovpn-api/src/host_agent_controller.rs` as a sequence of calls to its
database transaction and to the agent, and the system it is part of: any number
of API processes run it, writers change the peers, and the agent works on the
applies that were sent to it.

**The lock.**  `reconcile` and, by the triggers of migration 45, every statement
that changes a peer hold one advisory lock until their transactions end.  So
`begin` needs the lock, a transaction keeps its changes of
`host_agent_reconcile` to itself until `commit`, and a writer's commit is one
step that happens while no `reconcile` holds the lock.  A process that waits for
the lock is one that is not scheduled.  Statements that change no column of a
peer are left out.

**The agent.**  Sending an apply starts a request of the agent, which goes on
whatever happens to the sender.  Waiting for it ends with its response or with a
timeout.
-/

namespace ZeroVpn

open Library
open HostAgent

namespace Api
namespace HostAgentController

open Db (Uuid Server)

/-- The column `status`. -/
inductive ReconcileStatus where
  | pending
  | applied
  | failed
  deriving DecidableEq, Repr

/-- A row of `host_agent_reconcile`, with the defaults of the table.  The checks
of the table keep the revisions non-negative. -/
structure ReconcileRow where
  desiredRevision : Nat := 0
  desiredContentHash : String := ""
  desiredDigest : String := ""
  appliedRevision : Nat := 0
  appliedDigest : String := ""
  status : ReconcileStatus := .pending
  lastError : Option String := none
  deriving DecidableEq, Repr

namespace ReconcileRow

def setApplied (revision : Nat) (digest : String) (row : ReconcileRow) : ReconcileRow :=
  { row with
    appliedRevision := revision
    appliedDigest := digest
    status := .applied
    lastError := none }

def setPending (revision : Nat) (contentHash digest : String) (row : ReconcileRow) :
    ReconcileRow :=
  { row with
    desiredRevision := revision
    desiredContentHash := contentHash
    desiredDigest := digest
    status := .pending
    lastError := none }

def setFailed (reason : String) (row : ReconcileRow) : ReconcileRow :=
  { row with
    status := .failed
    lastError := some reason }

end ReconcileRow

abbrev ReconcileTable := Uuid → Option ReconcileRow

/-- The responses of the agent that `reconcile` looks at. -/
inductive Response where
  | stateStatus (appliedRevision : Option Nat) (appliedDigest : Option String)
  | applied (revision : Nat) (digest : String)
  | error (code : String)
  deriving DecidableEq, Repr

/-- The calls of `reconcile`. -/
inductive CtlCmd where
  /-- `BEGIN` and `pg_advisory_xact_lock`. -/
  | begin
  | activeServer
  /-- `INSERT … ON CONFLICT DO NOTHING`. -/
  | ensureRow (serverId : Uuid)
  /-- `SELECT … FOR UPDATE`. -/
  | readRow (serverId : Uuid)
  | desiredPeers (serverId : Uuid)
  | stateStatus
  | updateRow (serverId : Uuid) (set : ReconcileRow → ReconcileRow)
  | sendApply (candidate : DesiredState)
  | awaitApply (request : Nat)
  | commit
  /-- The transaction is dropped. -/
  | rollback

/-- The answers; `false` and `none` are errors. -/
def CtlCmd.Reply : CtlCmd → Type
  | begin => Bool
  | activeServer => Except String (Option Server)
  | ensureRow _ => Bool
  | readRow _ => Option ReconcileRow
  | desiredPeers _ => Except String (List DesiredPeer)
  | stateStatus => Option Response
  | updateRow .. => Bool
  | sendApply _ => Option Nat
  | awaitApply _ => Option Response
  | commit => Bool
  | rollback => Unit

/-- The transaction of the `reconcile` that holds the lock. -/
structure Tx where
  holder : Nat
  table : ReconcileTable
  /-- What the agent reported to it; not part of the program. -/
  seen : Option (Nat × String)

/-- The instant of a commit. -/
structure Commit where
  holder : Nat
  table : ReconcileTable
  journal : JournalFile
  db : Db

/-- What the processes share. -/
structure CtlSys (B Snapshot : Type) where
  db : Db
  /-- The committed rows of `host_agent_reconcile`. -/
  table : ReconcileTable
  tx : Option Tx
  agents : AgentPool B Snapshot
  /-- The number of commits of the writers.  This and what follows is not part of
  the program. -/
  version : Nat
  /-- The database at each version. -/
  dbAt : Nat → Db
  /-- The version at which an apply was sent. -/
  sentFrom : Nat → Nat
  /-- The entries of the journal with their versions, the last one first. -/
  history : List (AppliedState × Nat)
  commits : List Commit

section System

variable {B Snapshot : Type}
variable (backend : HostBackend B Snapshot) (digest : DesiredState → String)

namespace CtlSys

/-- Change the transaction of process `i`. -/
def onTx (s : CtlSys B Snapshot) (i : Nat) (f : Tx → Tx) : CtlSys B Snapshot :=
  { s with tx := s.tx.map fun tx => if tx.holder = i then f tx else tx }

/-- End the transaction of process `i` without a commit. -/
def rollback (s : CtlSys B Snapshot) (i : Nat) : CtlSys B Snapshot :=
  { s with tx := s.tx.filter fun tx => tx.holder ≠ i }

/-- Make the rows of a transaction the committed ones. -/
def commit (s : CtlSys B Snapshot) (tx : Tx) : CtlSys B Snapshot :=
  { s with
    table := tx.table
    tx := none
    commits := ⟨tx.holder, tx.table, s.agents.shared.journal, s.db⟩ :: s.commits }

/-- The last commit of process `i`. -/
def lastCommit (s : CtlSys B Snapshot) (i : Nat) : Option Commit :=
  s.commits.find? fun c => c.holder == i

/-- Start a request of the agent. -/
def send (s : CtlSys B Snapshot) (candidate : DesiredState) : CtlSys B Snapshot :=
  { s with
    agents := poolStep (agentSystem backend digest) s.agents (.spawn (.applyState candidate))
    sentFrom := Function.update s.sentFrom s.agents.threads.length s.version }

end CtlSys

/-- `Operation::StateStatus`: the revision and the digest of the journal. -/
def statusResponse (journal : JournalFile) : Response :=
  match journal.load digest with
  | .ok applied =>
      .stateStatus (applied.map fun a => a.state.revision) (applied.map fun a => a.digest)
  | .error _ => .error "state_unavailable"

/-- The response of a finished request of the agent. -/
def applyResponse (agents : AgentPool B Snapshot) (r : Nat) : Option Response :=
  match agents.threads[r]? with
  | some (_, some (.ret (.ok applied))) =>
      some (.applied applied.state.revision applied.digest)
  | some (_, some (.ret (.error _))) => some (.error "apply_failed")
  | _ => none

/-- The revision and the digest of a status; a missing journal counts as
revision 0. -/
def Response.status : Response → Option (Nat × String)
  | stateStatus revision d => some (revision.getD 0, d.getD "")
  | _ => none

/-- The meaning of a call of process `i`; the flag says whether it succeeds. -/
def CtlCmd.sem (i : Nat) :
    (c : CtlCmd) → Bool → CtlSys B Snapshot → CtlSys B Snapshot × c.Reply
  | .begin, ok, s =>
      if ok && s.tx.isNone then ({ s with tx := some ⟨i, s.table, none⟩ }, true) else (s, false)
  | .activeServer, true, s => (s, HostAgentController.activeServer s.db)
  | .activeServer, false, s => (s, .error "database")
  | .ensureRow id, true, s =>
      (s.onTx i fun tx =>
        { tx with table := Function.update tx.table id (some ((tx.table id).getD {})) }, true)
  | .ensureRow _, false, s => (s, false)
  | .readRow id, true, s => (s, s.tx.bind fun tx => tx.table id)
  | .readRow _, false, s => (s, none)
  | .desiredPeers id, true, s => (s, HostAgentController.desiredPeers id s.db)
  | .desiredPeers _, false, s => (s, .error "database")
  | .stateStatus, true, s =>
      let response := statusResponse digest s.agents.shared.journal
      (s.onTx i fun tx => { tx with seen := response.status }, some response)
  | .stateStatus, false, s => (s, none)
  | .updateRow id f, true, s =>
      (s.onTx i fun tx =>
        { tx with table := Function.update tx.table id ((tx.table id).map f) }, true)
  | .updateRow .., false, s => (s, false)
  | .sendApply candidate, true, s =>
      (s.send backend digest candidate, some s.agents.threads.length)
  | .sendApply _, false, s => (s, none)
  | .awaitApply r, true, s => (s, applyResponse s.agents r)
  | .awaitApply _, false, s => (s, none)
  | .commit, ok, s =>
      match s.tx with
      | some tx =>
          if tx.holder = i then
            if ok then (s.commit tx, true) else (s.rollback i, false)
          else (s, false)
      | none => (s, false)
  | .rollback, _, s => (s.rollback i, ())

end System

/-- How `reconcile` ends without an error. -/
inductive Outcome where
  | noServer
  | skipped
  | applied
  deriving DecidableEq, Repr

abbrev Ctl (α : Type) := Attempt CtlCmd CtlCmd.Reply String α

section Programs

variable {α : Type}

/-- A statement whose failure ends `reconcile`. -/
def execute (c : CtlCmd) (f : c.Reply → Bool) : Ctl Unit :=
  Attempt.lift c fun r => if f r then .ok () else .error "database"

/-- `?` on a value. -/
def orReturn (r : Except String α) : Ctl α := ExceptT.mk (Program.ret r)

/-- `next_revision`. -/
def nextRevision (databaseRevision agentRevision : Int) : Except String Int :=
  if 0 ≤ databaseRevision ∧ 0 ≤ agentRevision then
    if max databaseRevision agentRevision + 1 < 2 ^ 63 then
      .ok (max databaseRevision agentRevision + 1)
    else .error "host agent revision exhausted"
  else .error "negative host agent revision"

/-- The status request of `reconcile`. -/
def requestStatus : Ctl (Nat × String) :=
  Attempt.lift .stateStatus fun r =>
    match r with
    | none => .error "host agent timed out"
    | some (.stateStatus revision d) =>
        -- `i64::try_from`
        if revision.getD 0 < 2 ^ 63 then .ok (revision.getD 0, d.getD "")
        else .error "out of range integral type conversion attempted"
    | some (.error code) => .error s!"host agent status rejected: {code}"
    | some _ => .error "unexpected host agent status response"

/-- The apply request of `reconcile`. -/
def requestApply (candidate : DesiredState) : Ctl (Option Response) := do
  let sent : Option Nat ← Attempt.lift (.sendApply candidate) Except.ok
  match sent with
  | none => pure none
  | some r => Attempt.lift (.awaitApply r) Except.ok

/-- The reason that a failed apply leaves in the row. -/
def failureReason : Option Response → String
  | some (.error code) => code
  | some _ => "unexpected_apply_response"
  | none => "apply_unavailable"

/-- Does the row say that the agent has the desired content? -/
def upToDate (row : ReconcileRow) (contentHash : String) (agentRevision : Nat)
    (agentDigest : String) : Bool :=
  row.desiredContentHash == contentHash && row.desiredRevision == agentRevision &&
    row.desiredDigest == agentDigest

/-- `reconcile` when the row is up to date. -/
def skip (serverId : Uuid) (row : ReconcileRow) (agentRevision : Nat) (agentDigest : String) :
    Ctl Outcome := do
  if row.status ≠ .applied ∨ row.appliedRevision ≠ agentRevision ∨
      row.appliedDigest ≠ agentDigest then
    execute (.updateRow serverId (.setApplied agentRevision agentDigest)) id
  execute .commit id
  pure .skipped

/-- The end of `reconcile` after the apply request. -/
def recordOutcome (serverId : Uuid) (revision : Nat) (d : String) (response : Option Response) :
    Ctl Outcome := do
  if response = some (.applied revision d) then
    execute (.updateRow serverId (.setApplied revision d)) id
    execute .commit id
    pure .applied
  else
    let reason := failureReason response
    execute (.updateRow serverId (.setFailed reason)) id
    execute .commit id
    throw s!"host agent apply failed: {reason}"

variable (digest : DesiredState → String)

/-- `reconcile` when the row is not up to date. -/
def applyNext (server : Server) (row : ReconcileRow) (peers : List DesiredPeer)
    (contentHash : String) (agentRevision : Nat) : Ctl Outcome := do
  let next ← orReturn (nextRevision row.desiredRevision agentRevision)
  let candidate : DesiredState := ⟨next.toNat, server.publicKey, peers⟩
  let _ ← orReturn (candidate.validate digest agentRevision)
  let d := digest candidate
  execute (.updateRow server.id (.setPending next.toNat contentHash d)) id
  let response ← requestApply candidate
  recordOutcome server.id next.toNat d response

/-- `reconcile` for the one active server. -/
def reconcileServer (server : Server) : Ctl Outcome := do
  execute (.ensureRow server.id) id
  let row ← Attempt.lift (.readRow server.id) fun r =>
    match r with
    | some row => .ok row
    | none => .error "database"
  let peers ← Attempt.lift (.desiredPeers server.id) id
  let contentHash := digest ⟨0, server.publicKey, peers⟩
  let (agentRevision, agentDigest) ← requestStatus
  if upToDate row contentHash agentRevision agentDigest then
    skip server.id row agentRevision agentDigest
  else
    applyNext digest server row peers contentHash agentRevision

/-- The body of `reconcile` under the lock. -/
def reconcileLocked : Ctl Outcome := do
  match ← Attempt.lift .activeServer id with
  | none => pure .noServer
  | some server => reconcileServer digest server

/-- `HostAgentController::reconcile`.  A transaction that was not committed is
rolled back when it goes out of scope. -/
def reconcile : Ctl Outcome := do
  execute .begin id
  let r ← Attempt.outcome (reconcileLocked digest)
  Attempt.lift .rollback Except.ok
  orReturn r

end Programs

section Machine

variable {B Snapshot : Type}
variable (backend : HostBackend B Snapshot) (digest : DesiredState → String)

/-- The API processes.  The database rolls back the transaction of a process
that dies. -/
def ctlSystem :
    System (CtlSys B Snapshot) Unit Unit CtlCmd CtlCmd.Reply (Except String Outcome) where
  body _ := (reconcile digest).run
  sem i c ok s := c.sem backend digest i ok s
  crash i s := s.rollback i
  restart _ s := { s with tx := none }

abbrev CtlPool (B Snapshot : Type) :=
  Pool (CtlSys B Snapshot) Unit CtlCmd CtlCmd.Reply (Except String Outcome)

/-- What happens at the agent by itself: it starts a restore, a request moves on
or dies, or the host reboots. -/
inductive AgentEvent where
  | restore
  | step (r : Nat) (ok : Bool)
  | crash (r : Nat)
  | reboot

def AgentEvent.toPool : AgentEvent → PoolEvent AgentRequest Unit
  | restore => .spawn .restore
  | step r ok => .step r ok
  | crash r => .crash r
  | reboot => .restart ()

/-- The events of the system. -/
inductive CtlEvent where
  | api (e : PoolEvent Unit Unit)
  /-- The commit of a writer. -/
  | write (change : Db → Db)
  | agent (e : AgentEvent)

/-- The request that writes the journal in this event, and what it writes. -/
def writtenBy (agents : AgentPool B Snapshot) : AgentEvent → Option (Nat × AppliedState)
  | .step r true =>
      match nextCall agents r with
      | some (_, .persist applied) => some (r, applied)
      | _ => none
  | _ => none

/-- The system after an event of the agent. -/
def CtlSys.agentStep (s : CtlSys B Snapshot) (e : AgentEvent) : CtlSys B Snapshot :=
  { s with
    agents := poolStep (agentSystem backend digest) s.agents e.toPool
    history :=
      match writtenBy s.agents e with
      | some (r, applied) => (applied, s.sentFrom r) :: s.history
      | none => s.history }

/-- The system after the commit of a writer, which waits for the lock. -/
def CtlSys.write (s : CtlSys B Snapshot) (change : Db → Db) : CtlSys B Snapshot :=
  if s.tx.isNone then
    { s with
      db := change s.db
      version := s.version + 1
      dbAt := Function.update s.dbAt (s.version + 1) (change s.db) }
  else s

/-- One event of the system. -/
def ctlStep (p : CtlPool B Snapshot) : CtlEvent → CtlPool B Snapshot
  | .api e => poolStep (ctlSystem backend digest) p e
  | .write change => { p with shared := p.shared.write change }
  | .agent e => { p with shared := p.shared.agentStep backend digest e }

/-- The system before its first event: the table is new, and the agent may have
any journal. -/
def ctlIdle (db : Db) (journal : JournalFile) (host : B) : CtlPool B Snapshot where
  shared :=
    { db := db
      table := fun _ => none
      tx := none
      agents := agentIdle journal host
      version := 0
      dbAt := fun _ => db
      sentFrom := fun _ => 0
      history :=
        match journal.load digest with
        | .ok (some applied) => [(applied, 0)]
        | _ => []
      commits := [] }
  threads := []

end Machine

end HostAgentController
end Api
end ZeroVpn
