import ZeroVpn.HostAgent.State
import ZeroVpn.Library.Pool

/-!
# The apply transaction of the host agent

`ApplyCoordinator::apply` and `rollback_failure` of
`crates/zerovpn-host-agent/src/apply.rs`, `StateStore::record_applied` of
`state.rs`, `apply_state` of `apply_request.rs` and `restore_from_journal` of
`recovery.rs`, as sequences of calls to the state directory, the process lock
and the host backend.

A backend is any implementation of the trait `HostBackend`; every store call
may fail.  The in-process mutex of a `StateStore` is left out, since every
request has a store of its own.  The entries of `audit.jsonl` are not stored:
nothing reads them.
-/

namespace ZeroVpn

open Library

namespace HostAgent

/-- Where a request reads the journal. -/
inductive LoadSite where
  /-- `apply_state`, before the lock. -/
  | beforeLock
  /-- `apply` and `restore_from_journal`, under the lock. -/
  | locked
  /-- `record_applied`. -/
  | record
  /-- `apply`, after a failed `record_applied`. -/
  | confirm
  deriving DecidableEq, Repr

/-- The backend that `apply_state` or the restart chooses. -/
inductive BackendKind where
  | peerUpdate (previous : AppliedState)
  | cutover (serverPublicKey : String)
  | restart
  deriving DecidableEq, Repr

/-- An implementation of the trait `HostBackend` over host states `B`, with the
probes that its constructor makes. -/
structure HostBackend (B Snapshot : Type) where
  new : BackendKind → B → B × Except String Unit
  snapshot : BackendKind → B → B × Except String Snapshot
  stage : BackendKind → DesiredState → B → B × Except String Unit
  activate : BackendKind → B → B × Except String Unit
  verify : BackendKind → DesiredState → B → B × Except String Unit
  rollback : BackendKind → Snapshot → B → B × Except String Unit

/-- The calls of the agent. -/
inductive AgentCmd (Snapshot : Type) where
  /-- `acquire_apply_lock`. -/
  | acquireLock
  /-- The lock file is dropped. -/
  | releaseLock
  | load (site : LoadSite)
  | audit (action : String) (revision : Nat) (digest : String)
  | newBackend (kind : BackendKind)
  | snapshot (kind : BackendKind)
  | stage (kind : BackendKind) (candidate : DesiredState)
  | activate (kind : BackendKind)
  | verify (kind : BackendKind) (candidate : DesiredState)
  | rollback (kind : BackendKind) (snapshot : Snapshot)
  /-- The temporary file, written and synced. -/
  | writeTemporary (applied : AppliedState)
  /-- `NamedTempFile::persist`. -/
  | persist (applied : AppliedState)
  | syncDirectory

namespace AgentCmd

variable {Snapshot : Type}

/-- The answers; `false` is an I/O error. -/
def Reply : AgentCmd Snapshot → Type
  | acquireLock => Bool
  | releaseLock => Unit
  | load _ => Except String (Option AppliedState)
  | audit .. => Bool
  | newBackend _ => Except String Unit
  | snapshot _ => Except String Snapshot
  | stage .. => Except String Unit
  | activate _ => Except String Unit
  | verify .. => Except String Unit
  | rollback .. => Except String Unit
  | writeTemporary _ => Bool
  | persist _ => Bool
  | syncDirectory => Bool

end AgentCmd

/-- The state that the agent processes share. -/
structure AgentSys (B : Type) where
  journal : JournalFile
  /-- The request that holds the lock. -/
  lock : Option Nat
  host : B
  /-- The journal at the instant a request released the lock; not part of the
  program. -/
  atRelease : Nat → Option JournalFile

section Semantics

variable {B Snapshot : Type}
variable (backend : HostBackend B Snapshot) (digest : DesiredState → String)

/-- Let the backend change the host. -/
def onHost {α : Type} (s : AgentSys B) (f : B → B × α) : AgentSys B × α :=
  ({ s with host := (f s.host).1 }, (f s.host).2)

/-- The meaning of a call of request `i`; the flag says whether an I/O call
succeeds. -/
def AgentCmd.sem (i : Nat) :
    (c : AgentCmd Snapshot) → Bool → AgentSys B → AgentSys B × c.Reply
  | .acquireLock, ok, s =>
      if ok && s.lock.isNone then ({ s with lock := some i }, true) else (s, false)
  | .releaseLock, _, s =>
      ({ s with lock := none, atRelease := Function.update s.atRelease i (some s.journal) }, ())
  | .load _, true, s => (s, s.journal.load digest)
  | .load _, false, s => (s, .error "read last-known-good")
  | .audit .., ok, s => (s, ok)
  | .newBackend kind, _, s => onHost s (backend.new kind)
  | .snapshot kind, _, s => onHost s (backend.snapshot kind)
  | .stage kind candidate, _, s => onHost s (backend.stage kind candidate)
  | .activate kind, _, s => onHost s (backend.activate kind)
  | .verify kind candidate, _, s => onHost s (backend.verify kind candidate)
  | .rollback kind saved, _, s => onHost s (backend.rollback kind saved)
  | .writeTemporary _, ok, s => (s, ok)
  | .persist applied, true, s => ({ s with journal := .holds applied }, true)
  | .persist _, false, s => (s, false)
  | .syncDirectory, ok, s => (s, ok)

end Semantics

/-- The errors of an apply or a restore. -/
inductive AgentError where
  | lock
  | load (message : String)
  | noJournal
  | staleRevision
  | serverIdentityChange
  | invalidState (message : String)
  /-- An audit entry whose failure ends the request. -/
  | audit (action : String)
  | newBackend (message : String)
  | snapshotFailed (message : String)
  | record (message : String)
  /-- "apply failed; previous host state restored". -/
  | restored (cause : AgentError)
  /-- "apply failed: …; rollback failed: …; operator recovery required". -/
  | rollbackFailed (cause : AgentError) (message : String)
  /-- "commit_uncertain: host state retained; operator recovery required". -/
  | commitUncertain (cause : AgentError)
  | host (message : String)
  | digestMismatch
  deriving DecidableEq, Repr

/-- The error says "operator recovery required". -/
def AgentError.demandsRecovery : AgentError → Bool
  | rollbackFailed .. => true
  | commitUncertain _ => true
  | _ => false

/-- Programs of the agent. -/
abbrev Agent (Snapshot α : Type) :=
  Attempt (AgentCmd Snapshot) AgentCmd.Reply AgentError α

structure ApplyOutcome where
  applied : AppliedState
  finalAuditWritten : Bool
  deriving DecidableEq, Repr

section Programs

variable {Snapshot α : Type}

/-- Issue a call whose failure ends the request. -/
def io (c : AgentCmd Snapshot) (f : c.Reply → Bool) (e : AgentError) : Agent Snapshot Unit :=
  Attempt.lift c fun r => if f r then .ok () else .error e

/-- Issue a call and go on with its answer. -/
def ask (c : AgentCmd Snapshot) : Agent Snapshot c.Reply := Attempt.lift c Except.ok

/-- `audit(…)?`. -/
def audit (action : String) (revision : Nat) (d : String) : Agent Snapshot Unit :=
  io (.audit action revision d) id (.audit action)

/-- `load()?`. -/
def load (site : LoadSite) : Agent Snapshot (Option AppliedState) :=
  Attempt.lift (.load site) fun r => r.mapError AgentError.load

/-- `ensure!` and `return Err`. -/
def reject (e : AgentError) : Agent Snapshot α := throw e

variable (digest : DesiredState → String)

def priorRevision (previous : Option AppliedState) : Nat :=
  match previous with
  | some s => s.state.revision
  | none => 0

def changesIdentity (previous : Option AppliedState) (candidate : DesiredState) : Bool :=
  match previous with
  | some s => s.state.serverPublicKey != candidate.serverPublicKey
  | none => false

/-- `StateStore::record_applied`. -/
def recordApplied (candidate : DesiredState) : Agent Snapshot AppliedState := do
  let previous ← load .record
  let d ← match candidate.validate digest (priorRevision previous) with
    | .ok d => pure d
    | .error e => reject (.invalidState e)
  let applied : AppliedState := ⟨candidate, d⟩
  io (.writeTemporary applied) id (.record "write temporary file")
  io (.persist applied) id (.record "persist")
  io .syncDirectory id (.record "sync directory")
  pure applied

/-- `rollback_failure`. -/
def rollbackFailure (kind : BackendKind) (snapshot : Snapshot) (revision : Nat) (d : String)
    (error : AgentError) : Agent Snapshot α := do
  match ← ask (.rollback kind snapshot) with
  | .ok () => do
      audit "apply_rolled_back" revision d
      reject (.restored error)
  | .error e => do
      let _ ← ask (.audit "rollback_failed" revision d)
      reject (.rollbackFailed error e)

/-- `stage`, `activate` and `verify`, up to the first failure. -/
def mutateHost (kind : BackendKind) (candidate : DesiredState) : Agent Snapshot Unit := do
  Attempt.lift (.stage kind candidate) fun r => r.mapError AgentError.host
  Attempt.lift (.activate kind) fun r => r.mapError AgentError.host
  Attempt.lift (.verify kind candidate) fun r => r.mapError AgentError.host

/-- Does the journal hold the candidate after all? -/
def confirms (prior : Nat) (d : String) : Except String (Option AppliedState) → Bool
  | .ok (some s) => decide (prior < s.state.revision) && s.digest == d
  | _ => false

/-- The part of `apply` after the host was changed. -/
def commit (kind : BackendKind) (candidate : DesiredState) (snapshot : Snapshot) (prior : Nat) :
    Agent Snapshot ApplyOutcome := do
  let d := digest candidate
  match ← Attempt.outcome (audit "apply_verified" candidate.revision d) with
  | .error e => rollbackFailure kind snapshot candidate.revision d e
  | .ok () =>
      match ← Attempt.outcome (recordApplied digest candidate) with
      | .ok applied => do
          if applied.digest ≠ d then reject .digestMismatch
          let written : Bool ← ask (.audit "applied" applied.state.revision d)
          pure ⟨applied, written⟩
      | .error e => do
          let found : Except String (Option AppliedState) ← ask (.load .confirm)
          if confirms prior d found then do
            let _ ← ask (.audit "commit_uncertain" candidate.revision d)
            reject (.commitUncertain e)
          else rollbackFailure kind snapshot candidate.revision d e

/-- `apply` on a candidate that passed the checks. -/
def applyAccepted (kind : BackendKind) (candidate : DesiredState) (prior : Nat) :
    Agent Snapshot ApplyOutcome := do
  let d := digest candidate
  audit "apply_started" candidate.revision d
  match ← ask (.snapshot kind) with
  | .error e => do
      audit "snapshot_failed" candidate.revision d
      reject (.snapshotFailed e)
  | .ok snapshot =>
      match ← Attempt.outcome (mutateHost kind candidate) with
      | .error e => rollbackFailure kind snapshot candidate.revision d e
      | .ok () => commit digest kind candidate snapshot prior

/-- The transaction of `apply` under the lock. -/
def applyLocked (kind : BackendKind) (candidate : DesiredState) :
    Agent Snapshot ApplyOutcome := do
  let previous ← load .locked
  let prior := priorRevision previous
  let d := digest candidate
  if candidate.revision ≤ prior then do
    audit "rejected_stale_revision" candidate.revision d
    reject .staleRevision
  else if changesIdentity previous candidate then do
    audit "rejected_server_identity_change" candidate.revision d
    reject .serverIdentityChange
  else
    match candidate.validate digest prior with
    | .error e => do
        audit "rejected_invalid_state" candidate.revision d
        reject (.invalidState e)
    | .ok _ => applyAccepted digest kind candidate prior

/-- Run a body with the lock held; the lock is released on every path. -/
def withLock (body : Agent Snapshot α) : Agent Snapshot α := do
  io .acquireLock id .lock
  let r ← Attempt.outcome body
  ask .releaseLock
  match r with
  | .ok a => pure a
  | .error e => reject e

/-- `ApplyCoordinator::apply`. -/
def apply (kind : BackendKind) (candidate : DesiredState) : Agent Snapshot ApplyOutcome :=
  withLock (applyLocked digest kind candidate)

/-- The backend that `apply_state` chooses from the journal it read before the
lock. -/
def chooseBackend (previous : Option AppliedState) (candidate : DesiredState) : BackendKind :=
  match previous with
  | some s => .peerUpdate s
  | none => .cutover candidate.serverPublicKey

/-- `apply_state`. -/
def applyState (candidate : DesiredState) : Agent Snapshot AppliedState := do
  let previous ← load .beforeLock
  let kind := chooseBackend previous candidate
  Attempt.lift (.newBackend kind) fun r => r.mapError AgentError.newBackend
  let outcome ← apply digest kind candidate
  pure outcome.applied

/-- The transaction of `restore_from_journal` under the lock. -/
def restoreLocked : Agent Snapshot AppliedState := do
  match ← load .locked with
  | none => reject .noJournal
  | some applied => do
      audit "restore_started" applied.state.revision applied.digest
      match ← ask (.snapshot .restart) with
      | .error e => reject (.snapshotFailed e)
      | .ok snapshot =>
          match ← Attempt.outcome (mutateHost .restart applied.state) with
          | .error e => do
              match ← ask (.rollback .restart snapshot) with
              | .ok () => do
                  audit "restore_rolled_back" applied.state.revision applied.digest
                  reject (.restored e)
              | .error e' => do
                  let _ ← ask (.audit "restore_rollback_failed" applied.state.revision
                    applied.digest)
                  reject (.rollbackFailed e e')
          | .ok () => do
              audit "restored" applied.state.revision applied.digest
              pure applied

/-- `restore_from_journal`. -/
def restoreFromJournal : Agent Snapshot AppliedState := withLock restoreLocked

end Programs

section Accepted

variable {digest : DesiredState → String}

/-- The journal entry of a candidate. -/
def entryOf (digest : DesiredState → String) (candidate : DesiredState) : AppliedState :=
  ⟨candidate, digest candidate⟩

/-- The candidate passes the checks of `apply`. -/
def Accepted (previous : Option AppliedState) (candidate : DesiredState) : Prop :=
  priorRevision previous < candidate.revision ∧ changesIdentity previous candidate = false ∧
    candidate.validateContent = .ok ()

/-- The journal entry of an accepted candidate can be read back. -/
theorem load_entryOf {previous : Option AppliedState} {candidate : DesiredState}
    (h : Accepted previous candidate) :
    (JournalFile.holds (entryOf digest candidate)).load digest =
      .ok (some (entryOf digest candidate)) := by
  obtain ⟨hrevision, _, hcontent⟩ := h
  refine (JournalFile.load_holds digest).mpr ⟨rfl, ?_, hcontent, rfl⟩
  show 0 < candidate.revision
  omega

end Accepted

end HostAgent
end ZeroVpn
