import ZeroVpn.HostAgent.JournalInvariant
import ZeroVpn.HostAgent.Socket
import ZeroVpn.HostAgent.WgConfig

/-!
# Who may be applied

A candidate is checked in four places: `ValidateState` of `main.rs`,
`ApplyCoordinator::apply` of `apply.rs`, `PeerUpdateBackend::stage` of
`peer_update.rs` and `record_applied` of `state.rs`.  This file compares them on
one journal.
-/

namespace ZeroVpn

open Library
open Library.Attempt (wp wp_bind wp_lift wp_pure wp_throw wp_outcome)

namespace HostAgent

/-- The fields of `PeerUpdateBackend`. -/
structure PeerUpdateBackend where
  previous : AppliedState
  serverPrivateKey : String
  staged : Option SensitiveWgConfig
  deriving DecidableEq, Repr

/-- `PeerUpdateBackend::stage`. -/
def PeerUpdateBackend.stage (digest : DesiredState → String) (backend : PeerUpdateBackend)
    (candidate : DesiredState) : Except String PeerUpdateBackend := do
  ensure (decide (backend.previous.state.revision < candidate.revision)) "stale peer update revision"
  ensure (candidate.serverPublicKey == backend.previous.state.serverPublicKey)
    "server identity changed"
  let config ← render digest candidate backend.serverPrivateKey
  pure { backend with staged := some config }

/-- The word that the socket has for a refused apply. -/
def AgentError.reason : AgentError → Option String
  | load _ => some "state_unavailable"
  | staleRevision => some "stale_revision"
  | serverIdentityChange => some "server_identity_change"
  | invalidState _ => some "invalid_state"
  | _ => none

section Reasons

variable {Snapshot σ α β : Type} {sem : (c : AgentCmd Snapshot) → σ → σ × c.Reply}

/-- An error that is no refusal. -/
def NoRefusal (_ : σ) (r : Except AgentError α) : Prop := ∀ e, r = .error e → e.reason = none

theorem reject_noRefusal {e : AgentError} (h : e.reason = none) (s : σ) :
    wp sem (reject e : Agent Snapshot α) NoRefusal s := by
  intro e' heq
  cases heq
  exact h

theorem lift_noRefusal {c : AgentCmd Snapshot} {f : c.Reply → Except AgentError α}
    {k : α → Agent Snapshot β} (hf : ∀ r e, f r = .error e → e.reason = none)
    (hk : ∀ a t, wp sem (k a) NoRefusal t) (s : σ) :
    wp sem (Attempt.lift c f >>= k) NoRefusal s := by
  refine wp_bind (wp_lift ?_)
  cases hr : f (sem c s).2 with
  | error e =>
      intro e' heq
      cases heq
      exact hf _ e hr
  | ok a =>
      exact hk a _

theorem ask_noRefusal {c : AgentCmd Snapshot} {k : c.Reply → Agent Snapshot β}
    (hk : ∀ r t, wp sem (k r) NoRefusal t) (s : σ) :
    wp sem (ask c >>= k) NoRefusal s :=
  lift_noRefusal (fun _ _ heq => by cases heq) hk s

theorem audit_noRefusal {action : String} {revision : Nat} {d : String}
    {k : Unit → Agent Snapshot β} (hk : ∀ t, wp sem (k ()) NoRefusal t) (s : σ) :
    wp sem (audit action revision d >>= k) NoRefusal s := by
  refine lift_noRefusal ?_ (fun _ => hk) s
  intro r e heq
  cases hr : id r with
  | true =>
      rw [hr] at heq
      cases heq
  | false =>
      rw [hr] at heq
      cases heq
      rfl

theorem outcome_noRefusal {p : Agent Snapshot α} {k : Except AgentError α → Agent Snapshot β}
    (hk : ∀ r t, wp sem (k r) NoRefusal t) (s : σ) :
    wp sem (Attempt.outcome p >>= k) NoRefusal s :=
  wp_bind (wp_outcome (hk _ _))

variable {digest : DesiredState → String} {kind : BackendKind} {candidate : DesiredState}

theorem rollbackFailure_noRefusal {saved : Snapshot} {revision : Nat} {d : String}
    {error : AgentError} (s : σ) :
    wp sem (rollbackFailure kind saved revision d error : Agent Snapshot α) NoRefusal s := by
  refine ask_noRefusal (fun r t => ?_) s
  cases r with
  | ok u =>
      exact audit_noRefusal (reject_noRefusal rfl) t
  | error e =>
      exact ask_noRefusal (fun _ => reject_noRefusal rfl) t

theorem commit_noRefusal {saved : Snapshot} {prior : Nat} (s : σ) :
    wp sem (commit digest kind candidate saved prior) NoRefusal s := by
  refine outcome_noRefusal (fun r t => ?_) s
  cases r with
  | error e =>
      exact rollbackFailure_noRefusal t
  | ok u =>
      refine outcome_noRefusal (fun r t => ?_) t
      cases r with
      | error e =>
          refine ask_noRefusal (fun found t => ?_) t
          split
          · exact ask_noRefusal (fun _ => reject_noRefusal rfl) t
          · exact rollbackFailure_noRefusal t
      | ok applied =>
          dsimp only
          split
          · exact reject_noRefusal rfl t
          · refine ask_noRefusal (fun written t => ?_) t
            intro e heq
            cases heq

theorem applyAccepted_noRefusal {prior : Nat} (s : σ) :
    wp sem (applyAccepted digest kind candidate prior) NoRefusal s := by
  refine audit_noRefusal (fun t => ?_) s
  refine ask_noRefusal (fun r t => ?_) t
  cases r with
  | error e =>
      exact audit_noRefusal (reject_noRefusal rfl) t
  | ok saved =>
      refine outcome_noRefusal (fun r t => ?_) t
      cases r with
      | error e =>
          exact rollbackFailure_noRefusal t
      | ok u =>
          exact commit_noRefusal t

end Reasons

section Digests

open Attempt

variable {Snapshot α : Type}

/-- Every entry of the audit names this digest. -/
def AuditsDigest (d : String) : AgentCmd Snapshot → Prop
  | .audit _ _ d' => d' = d
  | _ => True

variable {digest : DesiredState → String} {kind : BackendKind} {candidate : DesiredState} {d : String}

theorem audit_audits {action : String} {revision : Nat} :
    Issues (AuditsDigest d) (audit action revision d : Agent Snapshot Unit) :=
  issues_lift rfl

theorem mutateHost_audits :
    Issues (AuditsDigest d) (mutateHost kind candidate : Agent Snapshot Unit) := by
  refine issues_bind (issues_lift trivial) fun _ => ?_
  refine issues_bind (issues_lift trivial) fun _ => ?_
  exact issues_lift trivial

theorem rollbackFailure_audits {saved : Snapshot} {revision : Nat} {error : AgentError} :
    Issues (AuditsDigest d) (rollbackFailure kind saved revision d error : Agent Snapshot α) := by
  refine issues_bind (issues_ask trivial) fun r => ?_
  rcases r with e | _
  · exact issues_bind (issues_ask rfl) fun _ => issues_throw _
  · exact issues_bind audit_audits fun _ => issues_throw _

theorem recordApplied_audits :
    Issues (AuditsDigest d) (recordApplied digest candidate : Agent Snapshot AppliedState) := by
  refine issues_bind (issues_lift trivial) fun previous => ?_
  dsimp only
  split
  · refine issues_bind (issues_pure _) fun d' => ?_
    refine issues_bind (issues_lift trivial) fun _ => ?_
    refine issues_bind (issues_lift trivial) fun _ => ?_
    exact issues_bind (issues_lift trivial) fun _ => issues_pure _
  · trivial

theorem commit_audits {saved : Snapshot} {prior : Nat} :
    Issues (AuditsDigest (digest candidate)) (commit digest kind candidate saved prior) := by
  refine issues_bind (issues_outcome audit_audits) fun r => ?_
  rcases r with e | _
  · exact rollbackFailure_audits
  · refine issues_bind (issues_outcome recordApplied_audits) fun r => ?_
    rcases r with e | applied
    · refine issues_bind (issues_ask trivial) fun found => ?_
      split
      · exact issues_bind (issues_ask rfl) fun _ => issues_throw _
      · exact rollbackFailure_audits
    · dsimp only
      split
      · exact issues_throw _
      · exact issues_bind (issues_ask rfl) fun _ => issues_pure _

theorem applyAccepted_audits {prior : Nat} :
    Issues (AuditsDigest (digest candidate))
      (applyAccepted digest kind candidate prior : Agent Snapshot ApplyOutcome) := by
  refine issues_bind audit_audits fun _ => ?_
  refine issues_bind (issues_ask trivial) fun r => ?_
  rcases r with e | saved
  · exact issues_bind audit_audits fun _ => issues_throw _
  · refine issues_bind (issues_outcome mutateHost_audits) fun r => ?_
    rcases r with e | _
    · exact rollbackFailure_audits
    · exact commit_audits

end Digests

section Comparison

variable {B Snapshot : Type} {backend : HostBackend B Snapshot} {digest : DesiredState → String}
variable {reads : HostReads B} {i : Nat} {kind : BackendKind} {candidate : DesiredState}

variable (backend digest reads i) in
/-- `ValidateState` when every call succeeds. -/
def validateOnce (candidate : DesiredState) (s : SocketSys B) : Except String Response :=
  ((execute digest (.validateState candidate)).exec
    (fun c => SocketCmd.sem backend digest reads i c true) s).2

variable (backend digest i) in
/-- `apply` when every call of the store succeeds, and the calls that it made. -/
def applyRecorded (kind : BackendKind) (candidate : DesiredState) (s : AgentSys B) :
    ((AgentSys B × List (AgentCmd Snapshot)) × Except AgentError ApplyOutcome) :=
  (apply digest kind candidate).exec
    (Program.recorded fun c => AgentCmd.sem backend digest i c true) (s, [])

variable {s : SocketSys B} {a : AgentSys B}

theorem validateOnce_unavailable {m : String} (h : s.agent.journal.load digest = .error m) :
    validateOnce backend digest reads i candidate s = .error "state_unavailable" := by
  unfold validateOnce execute validateState loadJournal
  rw [Attempt.exec_bind, Attempt.exec_lift]
  simp only [SocketCmd.sem, h]
  rfl

variable (backend reads i candidate) in
/-- What `ValidateState` answers. -/
theorem validateOnce_loaded {previous : Option AppliedState}
    (h : s.agent.journal.load digest = .ok previous) :
    validateOnce backend digest reads i candidate s =
      if candidate.revision ≤ priorRevision previous then .error "stale_revision"
      else if changesIdentity previous candidate then .error "server_identity_change"
      else
        match candidate.validate digest (priorRevision previous) with
        | .ok d => .ok (.validated protocolVersion candidate.revision d)
        | .error _ => .error "invalid_state" := by
  unfold validateOnce execute validateState loadJournal
  rw [Attempt.exec_bind, Attempt.exec_lift]
  simp only [SocketCmd.sem, h]
  by_cases hstale : candidate.revision ≤ priorRevision previous
  · simp only [Except.mapError, hstale, if_true]
    rfl
  · by_cases hidentity : changesIdentity previous candidate = true
    · simp only [Except.mapError, hstale, hidentity, if_true, if_false]
      rfl
    · simp only [Except.mapError, hstale, hidentity, if_false]
      cases candidate.validate digest (priorRevision previous) with
      | ok d =>
          rfl
      | error e =>
          rfl

variable (backend digest i) in
/-- The calls of an apply, written down. -/
abbrev noted (c : AgentCmd Snapshot) (t : AgentSys B × List (AgentCmd Snapshot)) :
    (AgentSys B × List (AgentCmd Snapshot)) × c.Reply :=
  Program.recorded (fun c => AgentCmd.sem backend digest i c true) c t

variable (backend digest i) in
/-- The lock is free, so that the body decides. -/
theorem withLock_noted {α : Type} (body : Agent Snapshot α) (hlock : a.lock = none) :
    ((withLock body).exec (noted backend digest i) (a, [])).2 =
        (body.exec (noted backend digest i) ({ a with lock := some i }, [.acquireLock])).2 ∧
      ((withLock body).exec (noted backend digest i) (a, [])).1.2 =
        (body.exec (noted backend digest i) ({ a with lock := some i }, [.acquireLock])).1.2 ++
          [.releaseLock] := by
  have hacquire : (io .acquireLock id .lock : Agent Snapshot Unit).exec (noted backend digest i)
      (a, []) = (({ a with lock := some i }, [.acquireLock]), .ok ()) := by
    unfold io
    rw [Attempt.exec_lift]
    simp [noted, Program.recorded, AgentCmd.sem, hlock]
  unfold withLock
  rw [Attempt.exec_bind_ok _ hacquire, Attempt.exec_bind_ok _ (Attempt.exec_outcome _ body _)]
  cases (body.exec (noted backend digest i) ({ a with lock := some i }, [.acquireLock])).2 with
  | ok out =>
      exact ⟨rfl, rfl⟩
  | error e =>
      exact ⟨rfl, rfl⟩

variable {log : List (AgentCmd Snapshot)}

theorem load_noted (site : LoadSite) :
    (load site : Agent Snapshot _).exec (noted backend digest i) (a, log) =
      ((a, log ++ [.load site]), (a.journal.load digest).mapError .load) := rfl

/-- A refusal under the lock. -/
theorem refuse_noted {action : String} {d : String} {e : AgentError} :
    (audit action candidate.revision d >>= fun _ => reject e : Agent Snapshot ApplyOutcome).exec
        (noted backend digest i) (a, log) =
      ((a, log ++ [.audit action candidate.revision d]), .error e) := rfl

theorem applyLocked_unavailable {m : String} (h : a.journal.load digest = .error m) :
    (applyLocked digest kind candidate).exec (noted backend digest i) (a, log) =
      ((a, log ++ [.load .locked]), .error (.load m)) := by
  unfold applyLocked
  rw [Attempt.exec_bind, load_noted, h]
  rfl

theorem applyLocked_stale {previous : Option AppliedState}
    (h : a.journal.load digest = .ok previous)
    (hstale : candidate.revision ≤ priorRevision previous) :
    (applyLocked digest kind candidate).exec (noted backend digest i) (a, log) =
      ((a, log ++ [.load .locked] ++
        [.audit "rejected_stale_revision" candidate.revision (digest candidate)]),
        .error .staleRevision) := by
  unfold applyLocked
  rw [Attempt.exec_bind, load_noted, h]
  simp only [Except.mapError, hstale, if_true]
  exact refuse_noted

theorem applyLocked_identity {previous : Option AppliedState}
    (h : a.journal.load digest = .ok previous)
    (hstale : ¬ candidate.revision ≤ priorRevision previous)
    (hidentity : changesIdentity previous candidate = true) :
    (applyLocked digest kind candidate).exec (noted backend digest i) (a, log) =
      ((a, log ++ [.load .locked] ++
        [.audit "rejected_server_identity_change" candidate.revision (digest candidate)]),
        .error .serverIdentityChange) := by
  unfold applyLocked
  rw [Attempt.exec_bind, load_noted, h]
  simp only [Except.mapError, hstale, hidentity, if_true, if_false]
  exact refuse_noted

theorem applyLocked_validated {previous : Option AppliedState}
    (h : a.journal.load digest = .ok previous)
    (hstale : ¬ candidate.revision ≤ priorRevision previous)
    (hidentity : ¬ changesIdentity previous candidate = true) :
    (applyLocked digest kind candidate).exec (noted backend digest i) (a, log) =
      match candidate.validate digest (priorRevision previous) with
      | .error e => ((a, log ++ [.load .locked] ++
          [.audit "rejected_invalid_state" candidate.revision (digest candidate)]),
          .error (.invalidState e))
      | .ok _ => (applyAccepted digest kind candidate (priorRevision previous)).exec
          (noted backend digest i) (a, log ++ [.load .locked]) := by
  unfold applyLocked
  rw [Attempt.exec_bind, load_noted, h]
  simp only [Except.mapError, hstale, hidentity, if_false]
  cases candidate.validate digest (priorRevision previous) with
  | ok d =>
      rfl
  | error e =>
      exact refuse_noted

/-- An accepted candidate is written down as started, with its digest only. -/
theorem applyAccepted_noted {prior : Nat} (hlog : ∀ c ∈ log, AuditsDigest (digest candidate) c)
    {d : String} :
    .audit "apply_started" candidate.revision d ∈
        ((applyAccepted digest kind candidate prior).exec (noted backend digest i) (a, log)).1.2 ↔
      d = digest candidate := by
  constructor
  · intro hmem
    exact Program.Calls.of_recorded applyAccepted_audits (a, log) hlog _ hmem
  · rintro rfl
    have hstarted : log ++ [.audit "apply_started" candidate.revision (digest candidate)] <+:
        ((applyAccepted digest kind candidate prior).exec (noted backend digest i) (a, log)).1.2 :=
      Program.prefix_recorded _ _ (a, log ++ [_])
    exact hstarted.subset (by simp)

variable (backend digest reads i kind candidate) in
/-- Both refuse with the same word, or both accept. -/
theorem decided_alike (hlock : s.agent.lock = none) :
    (∃ code e, validateOnce backend digest reads i candidate s = .error code ∧
      (applyRecorded backend digest i kind candidate s.agent).2 = .error e ∧
      e.reason = some code ∧
      ∀ d, .audit "apply_started" candidate.revision d ∉
        (applyRecorded backend digest i kind candidate s.agent).1.2) ∨
    ∃ previous, s.agent.journal.load digest = .ok previous ∧ Accepted previous candidate ∧
      validateOnce backend digest reads i candidate s =
        .ok (.validated protocolVersion candidate.revision (digest candidate)) ∧
      (∀ e, (applyRecorded backend digest i kind candidate s.agent).2 = .error e →
        e.reason = none) ∧
      ∀ d, .audit "apply_started" candidate.revision d ∈
        (applyRecorded backend digest i kind candidate s.agent).1.2 ↔ d = digest candidate := by
  obtain ⟨houtcome, hcalls⟩ :=
    withLock_noted backend digest i (applyLocked digest kind candidate) hlock
  unfold applyRecorded apply
  rw [houtcome, hcalls]
  generalize hlocked : { s.agent with lock := some i } = locked
  have hjournal : s.agent.journal.load digest = locked.journal.load digest := by rw [← hlocked]
  cases hload : s.agent.journal.load digest with
  | error m =>
      rw [applyLocked_unavailable (hjournal.symm.trans hload)]
      exact .inl ⟨_, _, validateOnce_unavailable hload, rfl, rfl, by simp⟩
  | ok previous =>
      have hvalidate := validateOnce_loaded backend reads i candidate hload
      by_cases hstale : candidate.revision ≤ priorRevision previous
      · rw [applyLocked_stale (hjournal.symm.trans hload) hstale]
        rw [if_pos hstale] at hvalidate
        exact .inl ⟨_, _, hvalidate, rfl, rfl, by simp⟩
      rw [if_neg hstale] at hvalidate
      by_cases hidentity : changesIdentity previous candidate = true
      · rw [applyLocked_identity (hjournal.symm.trans hload) hstale hidentity]
        rw [if_pos hidentity] at hvalidate
        exact .inl ⟨_, _, hvalidate, rfl, rfl, by simp⟩
      rw [if_neg hidentity] at hvalidate
      rw [applyLocked_validated (hjournal.symm.trans hload) hstale hidentity]
      cases hvalid : candidate.validate digest (priorRevision previous) with
      | error e =>
          rw [hvalid] at hvalidate
          exact .inl ⟨_, _, hvalidate, rfl, rfl, by simp⟩
      | ok d =>
          rw [hvalid] at hvalidate
          obtain ⟨hrevision, hcontent, rfl⟩ := (DesiredState.validate_eq_ok digest).mp hvalid
          have hidentity : changesIdentity previous candidate = false := by simpa using hidentity
          refine .inr ⟨previous, rfl, ⟨hrevision, hidentity, hcontent⟩, hvalidate,
            applyAccepted_noRefusal _, ?_⟩
          intro d
          rw [List.mem_append, applyAccepted_noted]
          · simp
          · simp [AuditsDigest]

theorem stage_accepted {previous : AppliedState} {key : String}
    {staged : Option SensitiveWgConfig} {config : SensitiveWgConfig}
    (h : Accepted (some previous) candidate) (hrender : render digest candidate key = .ok config) :
    PeerUpdateBackend.stage digest ⟨previous, key, staged⟩ candidate =
      .ok ⟨previous, key, some config⟩ := by
  obtain ⟨hrevision, hidentity, _⟩ := h
  have hrevision : previous.state.revision < candidate.revision := hrevision
  have hidentity : previous.state.serverPublicKey = candidate.serverPublicKey := by
    simpa [changesIdentity] using hidentity
  unfold PeerUpdateBackend.stage
  simp only [hrevision, hidentity, hrender, ensure, decide_true, beq_self_eq_true, if_true]
  rfl

theorem render_accepted {previous : Option AppliedState} {key : String}
    (h : Accepted previous candidate) (hkey : validKey key = true) :
    ∃ config, render digest candidate key = .ok config := by
  obtain ⟨hrevision, _, hcontent⟩ := h
  exact ⟨_, (render_eq_ok digest).mpr
    ⟨by omega, DesiredState.validateContent_eq_ok.mp hcontent, hkey, rfl⟩⟩

/-- An accepted candidate is recorded. -/
theorem recordApplied_accepted {previous : Option AppliedState}
    (hload : a.journal.load digest = .ok previous) (h : Accepted previous candidate) :
    (recordApplied digest candidate).exec (fun c => AgentCmd.sem backend digest i c true) a =
      ({ a with journal := .holds (entryOf digest candidate) }, .ok (entryOf digest candidate)) := by
  obtain ⟨hrevision, _, hcontent⟩ := h
  have hvalid : candidate.validate digest (priorRevision previous) = .ok (digest candidate) :=
    (DesiredState.validate_eq_ok digest).mpr ⟨hrevision, hcontent, rfl⟩
  unfold recordApplied load
  rw [Attempt.exec_bind, Attempt.exec_lift]
  simp only [AgentCmd.sem, hload, Except.mapError, hvalid]
  rfl

/-- `ValidateState` and `apply` on one journal decide alike, and what both accept is rejected
neither by `render` nor by the stage of a peer update nor by `record_applied`. -/
theorem validate_state_oracle (backend : HostBackend B Snapshot) (digest : DesiredState → String)
    (reads : HostReads B) (i : Nat) (kind : BackendKind) (candidate : DesiredState)
    {s : SocketSys B} (hlock : s.agent.lock = none) :
    (∀ code, validateOnce backend digest reads i candidate s = .error code ↔
      ∃ e, (applyRecorded backend digest i kind candidate s.agent).2 = .error e ∧
        e.reason = some code) ∧
    (∀ d, validateOnce backend digest reads i candidate s =
        .ok (.validated protocolVersion candidate.revision d) ↔
      .audit "apply_started" candidate.revision d ∈
        (applyRecorded backend digest i kind candidate s.agent).1.2) ∧
    ∀ response, validateOnce backend digest reads i candidate s = .ok response →
      response = .validated protocolVersion candidate.revision (digest candidate) ∧
      (∀ key, validKey key = true → ∃ config, render digest candidate key = .ok config ∧
        ∀ previous staged, s.agent.journal.load digest = .ok (some previous) →
          PeerUpdateBackend.stage digest ⟨previous, key, staged⟩ candidate =
            .ok ⟨previous, key, some config⟩) ∧
      (recordApplied digest candidate).exec (fun c => AgentCmd.sem backend digest i c true)
          s.agent =
        ({ s.agent with journal := .holds (entryOf digest candidate) },
          .ok (entryOf digest candidate)) := by
  rcases decided_alike backend digest reads i kind candidate hlock with
    ⟨code, e, hvalidate, happly, hreason, hcalls⟩ |
    ⟨previous, hload, haccepted, hvalidate, happly, hcalls⟩
  · rw [hvalidate, happly]
    refine ⟨?_, ?_, ?_⟩
    · intro code'
      simp [hreason]
    · intro d
      simp [hcalls d]
    · intro response h
      cases h
  · rw [hvalidate]
    refine ⟨?_, ?_, ?_⟩
    · intro code
      constructor
      · intro h
        cases h
      · rintro ⟨e, he, hreason⟩
        rw [happly e he] at hreason
        cases hreason
    · intro d
      rw [hcalls d]
      simp [eq_comm]
    · rintro response ⟨⟩
      refine ⟨rfl, ?_, recordApplied_accepted hload haccepted⟩
      intro key hkey
      obtain ⟨config, hrender⟩ := render_accepted haccepted hkey
      refine ⟨config, hrender, ?_⟩
      intro previous' staged hload'
      rw [hload, Except.ok.injEq] at hload'
      exact stage_accepted (hload' ▸ haccepted) hrender

/-- The agent of `sampleAgent`, with a host that shows no interface. -/
def sampleSocket : SocketSys MockHost where
  agent := sampleAgent
  record := none

def sampleReads : HostReads MockHost where
  observeHost := fun _ _ => .error "invalid kernel boot ID"
  wgShow := fun _ => .unavailable
  counters := fun _ => none
  draw := ""

theorem validate_state_oracle_sample :
    sampleSocket.agent.lock = none ∧
      validateOnce mockBackend sampleDigest sampleReads 0 (sampleState 2) sampleSocket =
        .ok (.validated protocolVersion 2 "ff") ∧
      .audit "apply_started" 2 "ff" ∈
        (applyRecorded mockBackend sampleDigest 0 sampleKind (sampleState 2) sampleAgent).1.2 := by
  have hvalidate : validateOnce mockBackend sampleDigest sampleReads 0 (sampleState 2)
      sampleSocket = .ok (.validated protocolVersion 2 "ff") := by decide
  exact ⟨rfl, hvalidate, ((validate_state_oracle mockBackend sampleDigest sampleReads 0 sampleKind
    (sampleState 2) (s := sampleSocket) rfl).2.1 "ff").mp hvalidate⟩

end Comparison

end HostAgent
end ZeroVpn
