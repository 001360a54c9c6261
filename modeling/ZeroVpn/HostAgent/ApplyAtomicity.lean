import ZeroVpn.HostAgent.Apply

/-!
# One apply, between the host and the journal

An apply runs alone, with any backend that honours its contract and any
pattern of failing store calls.  It either succeeds on both sides, leaves both
sides as they were, or asks for an operator, except on one path: the rename of
the journal took effect, a later step of `record_applied` failed, the journal
cannot be read back, and the rollback succeeds.
-/

namespace ZeroVpn

open Library
open Library.Attempt (wp wp_bind wp_lift wp_pure wp_throw wp_outcome)

namespace HostAgent

variable {B Snapshot L : Type}

/-- The documented contract of a backend: `snapshot` does not mutate the live
state, and a successful `rollback` restores what `snapshot` saw. -/
structure Contract (backend : HostBackend B Snapshot) (live : B → L) : Prop where
  snapshot_keeps : ∀ k b, live (backend.snapshot k b).1 = live b
  rollback_restores : ∀ k b b₁ b' b₂ saved,
    backend.snapshot k b = (b₁, .ok saved) → backend.rollback k saved b' = (b₂, .ok ()) →
      live b₂ = live b

/-- The live state is one that `verify` accepted for the candidate. -/
def Verified (backend : HostBackend B Snapshot) (live : B → L) (kind : BackendKind)
    (candidate : DesiredState) (l : L) : Prop :=
  ∃ b b', backend.verify kind candidate b = (b', .ok ()) ∧ live b' = l

section Atomicity

variable (backend : HostBackend B Snapshot) (digest : DesiredState → String)
variable (faults : AgentCmd Snapshot → Bool) (live : B → L)
variable (kind : BackendKind) (candidate : DesiredState)

/-- The meaning of the calls of one apply: `faults c` says whether the I/O call
`c` succeeds.  An apply makes no call twice. -/
def once (c : AgentCmd Snapshot) (s : AgentSys B) : AgentSys B × c.Reply :=
  c.sem backend digest 0 (faults c) s

/-- The state after one apply, and its outcome. -/
def applyOnce (s : AgentSys B) : AgentSys B × Except AgentError ApplyOutcome :=
  (apply digest kind candidate).exec (once backend digest faults) s

/-- The host and the journal agree on what the apply did, or the error asks for
an operator. -/
def Atomic (s t : AgentSys B) : Except AgentError ApplyOutcome → Prop
  | .ok out =>
      t.journal = .holds (entryOf digest candidate) ∧ out.applied = entryOf digest candidate ∧
        Verified backend live kind candidate (live t.host)
  | .error e =>
      (live t.host = live s.host ∧ t.journal = s.journal) ∨
        (t.journal = .holds (entryOf digest candidate) ∧
          Verified backend live kind candidate (live t.host)) ∨
        e.demandsRecovery = true

/-- After the host was changed: the rename takes effect, the directory cannot
be synced, the journal cannot be read back, and the rollback succeeds. -/
def CommitLost (saved : Snapshot) (b : B) : Prop :=
  faults (.audit "apply_verified" candidate.revision (digest candidate)) = true ∧
    faults (.load .record) = true ∧
    faults (.writeTemporary (entryOf digest candidate)) = true ∧
    faults (.persist (entryOf digest candidate)) = true ∧
    faults .syncDirectory = false ∧
    faults (.load .confirm) = false ∧
    ∃ b', backend.rollback kind saved b = (b', .ok ())

/-- The host calls before that succeed. -/
def HostChanged (b : B) : Prop :=
  ∃ b₁ saved, backend.snapshot kind b = (b₁, .ok saved) ∧
    ∃ b₂, backend.stage kind candidate b₁ = (b₂, .ok ()) ∧
      ∃ b₃, backend.activate kind b₂ = (b₃, .ok ()) ∧
        ∃ b₄, backend.verify kind candidate b₃ = (b₄, .ok ()) ∧
          CommitLost backend digest faults kind candidate saved b₄

/-- The path on which the journal moves on without the host. -/
def LostCommit (s : AgentSys B) : Prop :=
  s.lock = none ∧ faults .acquireLock = true ∧ faults (.load .locked) = true ∧
    (∃ previous, s.journal.load digest = .ok previous ∧ Accepted previous candidate) ∧
    faults (.audit "apply_started" candidate.revision (digest candidate)) = true ∧
    HostChanged backend digest faults kind candidate s.host

end Atomicity

section Rules

variable {backend : HostBackend B Snapshot} {digest : DesiredState → String}
variable {faults : AgentCmd Snapshot → Bool}
variable {α β : Type} {Q : AgentSys B → Except AgentError β → Prop} {s : AgentSys B}

theorem reject_wp {e : AgentError} (h : Q s (.error e)) :
    wp (once backend digest faults) (reject e : Agent Snapshot β) Q s := h

theorem ask_then {c : AgentCmd Snapshot} {k : c.Reply → Agent Snapshot β}
    (h : wp (once backend digest faults) (k (once backend digest faults c s).2) Q
      (once backend digest faults c s).1) :
    wp (once backend digest faults) (ask c >>= k) Q s := wp_bind h

theorem io_then {c : AgentCmd Snapshot} {f : c.Reply → Bool} {e : AgentError}
    {k : Unit → Agent Snapshot β}
    (hok : f (once backend digest faults c s).2 = true →
      wp (once backend digest faults) (k ()) Q (once backend digest faults c s).1)
    (herror : f (once backend digest faults c s).2 = false →
      Q (once backend digest faults c s).1 (.error e)) :
    wp (once backend digest faults) (io c f e >>= k) Q s := by
  refine wp_bind (wp_lift ?_)
  cases hflag : f (once backend digest faults c s).2 with
  | true =>
      exact hok hflag
  | false =>
      exact herror hflag

theorem audit_then {action : String} {revision : Nat} {d : String}
    {k : Unit → Agent Snapshot β}
    (hok : faults (.audit action revision d) = true →
      wp (once backend digest faults) (k ()) Q s)
    (herror : faults (.audit action revision d) = false → Q s (.error (.audit action))) :
    wp (once backend digest faults) (audit action revision d >>= k) Q s :=
  io_then hok herror

theorem once_persist {applied : AppliedState} (h : faults (.persist applied) = true) :
    once backend digest faults (.persist applied) s =
      ({ s with journal := .holds applied }, true) := by
  unfold once
  rw [h]
  rfl

theorem once_persist_failed {applied : AppliedState} (h : faults (.persist applied) = false) :
    once backend digest faults (.persist applied) s = (s, false) := by
  unfold once
  rw [h]
  rfl

/-- Reading the journal does not change it. -/
theorem once_load {site : LoadSite} :
    once backend digest faults (.load site) s =
      (s, if faults (.load site) then s.journal.load digest
        else .error "read last-known-good") := by
  unfold once
  cases faults (.load site) with
  | true =>
      rfl
  | false =>
      rfl

theorem persist_then {applied : AppliedState} {e : AgentError} {k : Unit → Agent Snapshot β}
    (hok : faults (.persist applied) = true →
      wp (once backend digest faults) (k ()) Q { s with journal := .holds applied })
    (herror : faults (.persist applied) = false → Q s (.error e)) :
    wp (once backend digest faults) (io (.persist applied) id e >>= k) Q s := by
  cases hflag : faults (.persist applied) with
  | true =>
      refine io_then ?_ ?_
      · intro _
        rw [once_persist hflag]
        exact hok hflag
      · rw [once_persist hflag]
        intro hfailed
        cases hfailed
  | false =>
      refine io_then ?_ ?_
      · rw [once_persist_failed hflag]
        intro hdone
        cases hdone
      · intro _
        rw [once_persist_failed hflag]
        exact herror hflag

theorem load_then {site : LoadSite} {k : Option AppliedState → Agent Snapshot β}
    (hok : ∀ previous, faults (.load site) = true → s.journal.load digest = .ok previous →
      wp (once backend digest faults) (k previous) Q s)
    (herror : ∀ message,
      faults (.load site) = false ∨ s.journal.load digest = .error message →
        Q s (.error (.load message))) :
    wp (once backend digest faults) (load site >>= k) Q s := by
  refine wp_bind (wp_lift ?_)
  cases hflag : faults (.load site) with
  | false =>
      simp only [once, AgentCmd.sem, hflag]
      exact herror _ (Or.inl hflag)
  | true =>
      cases hload : s.journal.load digest with
      | error message =>
          simp only [once, AgentCmd.sem, hflag, hload]
          exact herror message (Or.inr hload)
      | ok previous =>
          simp only [once, AgentCmd.sem, hflag, hload]
          exact hok previous hflag hload

/-- A rollback that succeeds restores the host and does not ask for an
operator; one that fails does. -/
theorem rollbackFailure_wp {kind : BackendKind} {saved : Snapshot} {revision : Nat} {d : String}
    {error : AgentError}
    (hok : ∀ b' e, backend.rollback kind saved s.host = (b', .ok ()) →
      e.demandsRecovery = false → Q { s with host := b' } (.error e))
    (herror : ∀ b' message e, backend.rollback kind saved s.host = (b', .error message) →
      e.demandsRecovery = true → Q { s with host := b' } (.error e)) :
    wp (once backend digest faults)
      (rollbackFailure kind saved revision d error : Agent Snapshot β) Q s := by
  unfold rollbackFailure
  refine ask_then ?_
  rcases hroll : backend.rollback kind saved s.host with ⟨b', message | u⟩
  · simp only [once, AgentCmd.sem, onHost, hroll]
    exact ask_then (reject_wp (herror b' message _ hroll rfl))
  · simp only [once, AgentCmd.sem, onHost, hroll]
    refine audit_then ?_ ?_
    · intro _
      exact reject_wp (hok b' _ hroll rfl)
    · intro _
      exact hok b' _ hroll rfl

/-- The three host calls up to their first failure. -/
theorem mutateHost_wp {kind : BackendKind} {candidate : DesiredState}
    {Q : AgentSys B → Except AgentError Unit → Prop}
    (hok : ∀ b₂ b₃ b₄, backend.stage kind candidate s.host = (b₂, .ok ()) →
      backend.activate kind b₂ = (b₃, .ok ()) →
      backend.verify kind candidate b₃ = (b₄, .ok ()) → Q { s with host := b₄ } (.ok ()))
    (herror : ∀ b' e,
      (∀ b₂ b₃ b₄, backend.stage kind candidate s.host = (b₂, .ok ()) →
        backend.activate kind b₂ = (b₃, .ok ()) →
        backend.verify kind candidate b₃ ≠ (b₄, .ok ())) → Q { s with host := b' } (.error e)) :
    wp (once backend digest faults) (mutateHost kind candidate : Agent Snapshot Unit) Q s := by
  unfold mutateHost
  refine wp_bind (wp_lift ?_)
  rcases hstage : backend.stage kind candidate s.host with ⟨b₂, e | u⟩
  · simp only [once, AgentCmd.sem, onHost, hstage]
    refine herror b₂ _ ?_
    intro b₂' _ _ h
    rw [hstage] at h
    cases h
  · simp only [once, AgentCmd.sem, onHost, hstage]
    refine wp_bind (wp_lift ?_)
    rcases hactivate : backend.activate kind b₂ with ⟨b₃, e | u⟩
    · simp only [once, AgentCmd.sem, onHost, hactivate]
      refine herror b₃ _ ?_
      intro b₂' b₃' _ h h'
      rw [hstage] at h
      cases h
      rw [hactivate] at h'
      cases h'
    · simp only [once, AgentCmd.sem, onHost, hactivate]
      refine wp_lift ?_
      rcases hverify : backend.verify kind candidate b₃ with ⟨b₄, e | u⟩
      · simp only [once, AgentCmd.sem, onHost, hverify]
        refine herror b₄ _ ?_
        intro b₂' b₃' b₄' h h' h''
        rw [hstage] at h
        cases h
        rw [hactivate] at h'
        cases h'
        rw [hverify] at h''
        cases h''
      · simp only [once, AgentCmd.sem, onHost, hverify]
        exact hok b₂ b₃ b₄ hstage hactivate hverify

/-- `record_applied` fails before the rename, fails after it, or succeeds. -/
theorem recordApplied_wp {previous : Option AppliedState} {candidate : DesiredState}
    {Q : AgentSys B → Except AgentError AppliedState → Prop}
    (hload : s.journal.load digest = .ok previous) (haccepted : Accepted previous candidate)
    (hbefore : ∀ e,
      ¬(faults (.load .record) = true ∧
        faults (.writeTemporary (entryOf digest candidate)) = true ∧
        faults (.persist (entryOf digest candidate)) = true) → Q s (.error e))
    (hafter : ∀ e, faults (.load .record) = true →
      faults (.writeTemporary (entryOf digest candidate)) = true →
      faults (.persist (entryOf digest candidate)) = true →
      faults .syncDirectory = false →
        Q { s with journal := .holds (entryOf digest candidate) } (.error e))
    (hok : faults .syncDirectory = true →
      Q { s with journal := .holds (entryOf digest candidate) }
        (.ok (entryOf digest candidate))) :
    wp (once backend digest faults)
      (recordApplied digest candidate : Agent Snapshot AppliedState) Q s := by
  unfold recordApplied
  refine load_then ?_ ?_
  · intro previous' hrecord hload'
    rw [hload] at hload'
    cases hload'
    have hvalid : candidate.validate digest (priorRevision previous) = .ok (digest candidate) :=
      (DesiredState.validate_eq_ok digest).mpr ⟨haccepted.1, haccepted.2.2, rfl⟩
    rw [hvalid]
    refine io_then ?_ ?_
    · intro htemporary
      refine persist_then ?_ ?_
      · intro hpersist
        refine io_then ?_ ?_
        · intro hsync
          exact hok hsync
        · intro hsync
          exact hafter _ hrecord htemporary hpersist hsync
      · intro hpersist
        refine hbefore _ ?_
        rintro ⟨_, _, hflag⟩
        exact Bool.noConfusion (hpersist.symm.trans hflag)
    · intro htemporary
      refine hbefore _ ?_
      rintro ⟨_, hflag, _⟩
      exact Bool.noConfusion (htemporary.symm.trans hflag)
  · intro message hfail
    refine hbefore _ ?_
    rintro ⟨hrecord, _⟩
    rcases hfail with hflag | hfail
    · rw [hrecord] at hflag
      cases hflag
    · rw [hload] at hfail
      cases hfail

theorem audit_wp {action : String} {revision : Nat} {d : String}
    {Q : AgentSys B → Except AgentError Unit → Prop}
    (hok : faults (.audit action revision d) = true → Q s (.ok ()))
    (herror : faults (.audit action revision d) = false → Q s (.error (.audit action))) :
    wp (once backend digest faults) (audit action revision d : Agent Snapshot Unit) Q s := by
  refine wp_lift ?_
  show Q s (if faults (.audit action revision d) then .ok () else .error (.audit action))
  cases hflag : faults (.audit action revision d) with
  | true =>
      exact hok hflag
  | false =>
      exact herror hflag

/-- What `commit` can do. -/
theorem commit_wp {kind : BackendKind} {previous : Option AppliedState}
    {candidate : DesiredState} {saved : Snapshot}
    {Q : AgentSys B → Except AgentError ApplyOutcome → Prop}
    (hload : s.journal.load digest = .ok previous) (haccepted : Accepted previous candidate)
    (hok : ∀ out, ¬CommitLost backend digest faults kind candidate saved s.host →
      out.applied = entryOf digest candidate →
        Q { s with journal := .holds (entryOf digest candidate) } (.ok out))
    (hback : ∀ b' e, ¬CommitLost backend digest faults kind candidate saved s.host →
      backend.rollback kind saved s.host = (b', .ok ()) → Q { s with host := b' } (.error e))
    (hrecovery : ∀ t e, ¬CommitLost backend digest faults kind candidate saved s.host →
      e.demandsRecovery = true → Q t (.error e))
    (hlost : ∀ b' e, CommitLost backend digest faults kind candidate saved s.host →
      backend.rollback kind saved s.host = (b', .ok ()) → e.demandsRecovery = false →
        Q { s with journal := .holds (entryOf digest candidate), host := b' } (.error e)) :
    wp (once backend digest faults)
      (commit digest kind candidate saved (priorRevision previous) :
        Agent Snapshot ApplyOutcome) Q s := by
  unfold commit
  refine wp_bind (wp_outcome (audit_wp ?_ ?_))
  · intro hverified
    dsimp only
    refine wp_bind (wp_outcome (recordApplied_wp hload haccepted ?_ ?_ ?_))
    · -- nothing was written: the journal read back is the old one
      intro e hnot
      have hkept : ¬CommitLost backend digest faults kind candidate saved s.host := by
        rintro ⟨_, hrecord, htemporary, hpersist, _⟩
        exact hnot ⟨hrecord, htemporary, hpersist⟩
      have hunconfirmed : confirms (priorRevision previous) (digest candidate)
          (if faults (.load .confirm) then s.journal.load digest
            else .error "read last-known-good") = false := by
        split
        · rw [hload]
          cases previous with
          | none =>
              rfl
          | some p =>
              simp [confirms, priorRevision]
        · rfl
      refine ask_then ?_
      rw [once_load, hunconfirmed]
      refine rollbackFailure_wp ?_ ?_
      · intro b' e hroll _
        exact hback b' e hkept hroll
      · intro b' message e _ hdemands
        exact hrecovery _ e hkept hdemands
    · -- the rename took effect
      intro e hrecord htemporary hpersist hsync
      refine ask_then ?_
      rw [once_load]
      cases hconfirm : faults (.load .confirm) with
      | true =>
          have hconfirms : confirms (priorRevision previous) (digest candidate)
              (if true then (JournalFile.holds (entryOf digest candidate)).load digest
                else .error "read last-known-good") = true := by
            rw [if_pos rfl, load_entryOf haccepted]
            simp only [confirms, entryOf, beq_self_eq_true, Bool.and_true]
            exact decide_eq_true haccepted.1
          dsimp only
          rw [hconfirms]
          refine ask_then (reject_wp (hrecovery _ _ ?_ rfl))
          rintro ⟨_, _, _, _, _, hflag, _⟩
          exact Bool.noConfusion (hconfirm.symm.trans hflag)
      | false =>
          refine rollbackFailure_wp ?_ ?_
          · intro b' e hroll hplain
            exact hlost b' e
              ⟨hverified, hrecord, htemporary, hpersist, hsync, hconfirm, b', hroll⟩ hroll hplain
          · intro b' message e hroll hdemands
            refine hrecovery _ e ?_ hdemands
            rintro ⟨_, _, _, _, _, _, b'', hroll'⟩
            rw [hroll] at hroll'
            cases hroll'
    · intro hsync
      dsimp only
      rw [if_neg (by simp [entryOf])]
      refine ask_then (wp_pure (hok _ ?_ rfl))
      rintro ⟨_, _, _, _, hflag, _⟩
      exact Bool.noConfusion (hsync.symm.trans hflag)
  · intro hverified
    have hkept : ¬CommitLost backend digest faults kind candidate saved s.host := by
      rintro ⟨hflag, _⟩
      exact Bool.noConfusion (hverified.symm.trans hflag)
    refine rollbackFailure_wp ?_ ?_
    · intro b' e hroll _
      exact hback b' e hkept hroll
    · intro b' message e _ hdemands
      exact hrecovery _ e hkept hdemands

end Rules

section Main

variable {backend : HostBackend B Snapshot} {digest : DesiredState → String}
variable {faults : AgentCmd Snapshot → Bool} {live : B → L}
variable {kind : BackendKind} {candidate : DesiredState} {s : AgentSys B}

/-- The journal moved on and the host did not. -/
def Diverged (digest : DesiredState → String) (live : B → L) (candidate : DesiredState)
    (s t : AgentSys B) (r : Except AgentError ApplyOutcome) : Prop :=
  ∃ e, r = .error e ∧ e.demandsRecovery = false ∧ live t.host = live s.host ∧
    t.journal = .holds (entryOf digest candidate) ∧ t.journal ≠ s.journal

/-- A candidate that is accepted is not in the journal yet. -/
theorem holds_ne_of_accepted {journal : JournalFile} {previous : Option AppliedState}
    (hload : journal.load digest = .ok previous) (haccepted : Accepted previous candidate) :
    JournalFile.holds (entryOf digest candidate) ≠ journal := by
  rintro rfl
  rw [load_entryOf haccepted] at hload
  cases hload
  exact Nat.lt_irrefl _ haccepted.1

/-- Inside the lock: the transaction is atomic, or it is on the losing path. -/
theorem applyAccepted_wp (hcontract : Contract backend live) {previous : Option AppliedState}
    (hload : s.journal.load digest = .ok previous) (haccepted : Accepted previous candidate) :
    wp (once backend digest faults)
      (applyAccepted digest kind candidate (priorRevision previous) :
        Agent Snapshot ApplyOutcome)
      (fun t r =>
        (¬(faults (.audit "apply_started" candidate.revision (digest candidate)) = true ∧
            HostChanged backend digest faults kind candidate s.host) ∧
          Atomic backend digest live kind candidate s t r) ∨
        (faults (.audit "apply_started" candidate.revision (digest candidate)) = true ∧
          HostChanged backend digest faults kind candidate s.host ∧
          Diverged digest live candidate s t r)) s := by
  unfold applyAccepted
  refine audit_then ?_ ?_
  · intro hstarted
    refine ask_then ?_
    have hsnap : once backend digest faults (.snapshot kind) s =
        onHost s (backend.snapshot kind) := rfl
    rw [hsnap]
    have hkeeps := hcontract.snapshot_keeps kind s.host
    rcases hsnapshot : backend.snapshot kind s.host with ⟨b₁, message | saved⟩
    · rw [hsnapshot] at hkeeps
      simp only [onHost, hsnapshot]
      have hsame : ∀ e, Atomic backend digest live kind candidate s { s with host := b₁ }
          (.error e) := fun e => Or.inl ⟨hkeeps, rfl⟩
      have hnot : ¬(faults (.audit "apply_started" candidate.revision (digest candidate)) = true ∧
          HostChanged backend digest faults kind candidate s.host) := by
        rintro ⟨_, b₁', saved, h, _⟩
        rw [hsnapshot] at h
        cases h
      refine audit_then ?_ ?_
      · intro _
        exact reject_wp (Or.inl ⟨hnot, hsame _⟩)
      · intro _
        exact Or.inl ⟨hnot, hsame _⟩
    · rw [hsnapshot] at hkeeps
      simp only [onHost, hsnapshot]
      refine wp_bind (wp_outcome (mutateHost_wp ?_ ?_))
      · intro b₂ b₃ b₄ hstage hactivate hverify
        have hchanged : HostChanged backend digest faults kind candidate s.host →
            CommitLost backend digest faults kind candidate saved b₄ := by
          rintro ⟨_, _, h₁, _, h₂, _, h₃, _, h₄, hcommit⟩
          cases hsnapshot.symm.trans h₁
          cases hstage.symm.trans h₂
          cases hactivate.symm.trans h₃
          cases hverify.symm.trans h₄
          exact hcommit
        refine commit_wp hload haccepted ?_ ?_ ?_ ?_
        · intro out hkept happlied
          exact Or.inl ⟨fun h => hkept (hchanged h.2), rfl, happlied, b₃, b₄, hverify, rfl⟩
        · intro b' e hkept hroll
          have hrestored := hcontract.rollback_restores kind s.host b₁ b₄ b' saved hsnapshot hroll
          exact Or.inl ⟨fun h => hkept (hchanged h.2), Or.inl ⟨hrestored, rfl⟩⟩
        · intro t e hkept hdemands
          exact Or.inl ⟨fun h => hkept (hchanged h.2), Or.inr (Or.inr hdemands)⟩
        · intro b' e hlost hroll hplain
          have hrestored := hcontract.rollback_restores kind s.host b₁ b₄ b' saved hsnapshot hroll
          refine Or.inr ⟨hstarted, ⟨b₁, saved, hsnapshot, b₂, hstage, b₃, hactivate, b₄, hverify,
            hlost⟩, e, rfl, hplain, hrestored, rfl, ?_⟩
          exact holds_ne_of_accepted hload haccepted
      · intro b' e hfailed
        have hnot : ¬(faults (.audit "apply_started" candidate.revision (digest candidate)) =
            true ∧ HostChanged backend digest faults kind candidate s.host) := by
          rintro ⟨_, _, _, h₁, b₂, h₂, b₃, h₃, b₄, h₄, _⟩
          cases hsnapshot.symm.trans h₁
          exact hfailed b₂ b₃ b₄ h₂ h₃ h₄
        refine rollbackFailure_wp ?_ ?_
        · intro b'' e' hroll _
          have hrestored := hcontract.rollback_restores kind s.host b₁ b' b'' saved hsnapshot hroll
          exact Or.inl ⟨hnot, Or.inl ⟨hrestored, rfl⟩⟩
        · intro b'' message e' _ hdemands
          exact Or.inl ⟨hnot, Or.inr (Or.inr hdemands)⟩
  · intro hstarted
    refine Or.inl ⟨?_, Or.inl ⟨rfl, rfl⟩⟩
    rintro ⟨hflag, _⟩
    exact Bool.noConfusion (hstarted.symm.trans hflag)

/-- The whole transaction under the lock. -/
theorem applyLocked_wp (hcontract : Contract backend live) :
    wp (once backend digest faults)
      (applyLocked digest kind candidate : Agent Snapshot ApplyOutcome)
      (fun t r =>
        (¬(faults (.load .locked) = true ∧
            (∃ previous, s.journal.load digest = .ok previous ∧ Accepted previous candidate) ∧
            faults (.audit "apply_started" candidate.revision (digest candidate)) = true ∧
            HostChanged backend digest faults kind candidate s.host) ∧
          Atomic backend digest live kind candidate s t r) ∨
        (faults (.load .locked) = true ∧
            (∃ previous, s.journal.load digest = .ok previous ∧ Accepted previous candidate) ∧
            faults (.audit "apply_started" candidate.revision (digest candidate)) = true ∧
            HostChanged backend digest faults kind candidate s.host ∧
          Diverged digest live candidate s t r)) s := by
  unfold applyLocked
  -- a request that is refused has touched neither the host nor the journal
  have hrefused : ∀ (t : AgentSys B) (e : AgentError), t = s →
      Atomic backend digest live kind candidate s t (.error e) := by
    rintro t e rfl
    exact Or.inl ⟨rfl, rfl⟩
  refine load_then ?_ ?_
  · intro previous hlocked hload
    have hother : ∀ {P : Prop}, ¬Accepted previous candidate →
        ¬(faults (.load .locked) = true ∧
          (∃ previous, s.journal.load digest = .ok previous ∧ Accepted previous candidate) ∧ P) := by
      rintro P hnot ⟨_, ⟨previous', hload', haccepted⟩, _⟩
      rw [hload] at hload'
      cases hload'
      exact hnot haccepted
    by_cases hstale : candidate.revision ≤ priorRevision previous
    · rw [if_pos hstale]
      have hnot : ¬Accepted previous candidate := fun h => Nat.not_lt.mpr hstale h.1
      refine audit_then ?_ ?_
      · intro _
        exact reject_wp (Or.inl ⟨hother hnot, hrefused _ _ rfl⟩)
      · intro _
        exact Or.inl ⟨hother hnot, hrefused _ _ rfl⟩
    · rw [if_neg hstale]
      cases hidentity : changesIdentity previous candidate with
      | true =>
          have hnot : ¬Accepted previous candidate := by
            rintro ⟨_, h, _⟩
            exact Bool.noConfusion (hidentity.symm.trans h)
          rw [if_pos rfl]
          refine audit_then ?_ ?_
          · intro _
            exact reject_wp (Or.inl ⟨hother hnot, hrefused _ _ rfl⟩)
          · intro _
            exact Or.inl ⟨hother hnot, hrefused _ _ rfl⟩
      | false =>
          rw [if_neg Bool.false_ne_true]
          cases hvalid : candidate.validate digest (priorRevision previous) with
          | error message =>
              have hnot : ¬Accepted previous candidate := by
                rintro ⟨hrevision, _, hcontent⟩
                have hok := (DesiredState.validate_eq_ok digest).mpr ⟨hrevision, hcontent, rfl⟩
                rw [hvalid] at hok
                cases hok
              refine audit_then ?_ ?_
              · intro _
                exact reject_wp (Or.inl ⟨hother hnot, hrefused _ _ rfl⟩)
              · intro _
                exact Or.inl ⟨hother hnot, hrefused _ _ rfl⟩
          | ok d =>
              obtain ⟨hrevision, hcontent, _⟩ := (DesiredState.validate_eq_ok digest).mp hvalid
              have haccepted : Accepted previous candidate := ⟨hrevision, hidentity, hcontent⟩
              refine Attempt.wp_mono (applyAccepted_wp hcontract hload haccepted) ?_
              rintro t r (⟨hnot, hatomic⟩ | ⟨hstarted, hchanged, hdiverged⟩)
              · exact Or.inl ⟨fun h => hnot h.2.2, hatomic⟩
              · exact Or.inr ⟨hlocked, ⟨previous, hload, haccepted⟩, hstarted, hchanged, hdiverged⟩
  · intro message hfailed
    refine Or.inl ⟨?_, hrefused _ _ rfl⟩
    rintro ⟨hflag, ⟨previous, hload, _⟩, _⟩
    rcases hfailed with hfailed | hfailed
    · exact Bool.noConfusion (hfailed.symm.trans hflag)
    · rw [hload] at hfailed
      cases hfailed

theorem apply_wp (hcontract : Contract backend live) :
    wp (once backend digest faults) (apply digest kind candidate : Agent Snapshot ApplyOutcome)
      (fun t r =>
        (¬LostCommit backend digest faults kind candidate s ∧
          Atomic backend digest live kind candidate s t r) ∨
        (LostCommit backend digest faults kind candidate s ∧
          Diverged digest live candidate s t r)) s := by
  unfold apply withLock
  have hacquire : once backend digest faults .acquireLock s =
      if faults .acquireLock && s.lock.isNone then ({ s with lock := some 0 }, true)
      else (s, false) := rfl
  by_cases hfree : (faults .acquireLock && s.lock.isNone) = true
  · rw [if_pos hfree] at hacquire
    rw [Bool.and_eq_true, Option.isNone_iff_eq_none] at hfree
    refine io_then ?_ ?_
    · intro _
      rw [hacquire]
      refine wp_bind (wp_outcome (Attempt.wp_mono (applyLocked_wp hcontract) ?_))
      intro t r h
      refine ask_then ?_
      have hend : (¬LostCommit backend digest faults kind candidate s ∧
            Atomic backend digest live kind candidate s t r) ∨
          (LostCommit backend digest faults kind candidate s ∧
            Diverged digest live candidate s t r) := by
        rcases h with ⟨hnot, hatomic⟩ | ⟨h₁, h₂, h₃, h₄, hdiverged⟩
        · exact Or.inl ⟨fun hlost => hnot hlost.2.2, hatomic⟩
        · exact Or.inr ⟨⟨hfree.2, hfree.1, h₁, h₂, h₃, h₄⟩, hdiverged⟩
      cases r with
      | ok out =>
          exact hend
      | error e =>
          exact hend
    · rw [hacquire]
      intro hfailed
      cases hfailed
  · rw [if_neg hfree] at hacquire
    refine io_then ?_ ?_
    · rw [hacquire]
      intro hdone
      cases hdone
    · intro _
      rw [hacquire]
      refine Or.inl ⟨?_, Or.inl ⟨rfl, rfl⟩⟩
      rintro ⟨hlock, hflag, _⟩
      exact hfree (by rw [hflag, hlock]; rfl)

/--
An apply is atomic between the host and the journal exactly when it is not on
the losing path with a host that was not the candidate before.
-/
theorem apply_atomic_iff (hcontract : Contract backend live) (s : AgentSys B) :
    Atomic backend digest live kind candidate s
        (applyOnce backend digest faults kind candidate s).1
        (applyOnce backend digest faults kind candidate s).2 ↔
      ¬(LostCommit backend digest faults kind candidate s ∧
        ¬Verified backend live kind candidate (live s.host)) := by
  have happly : (¬LostCommit backend digest faults kind candidate s ∧
        Atomic backend digest live kind candidate s
          (applyOnce backend digest faults kind candidate s).1
          (applyOnce backend digest faults kind candidate s).2) ∨
      (LostCommit backend digest faults kind candidate s ∧
        Diverged digest live candidate s
          (applyOnce backend digest faults kind candidate s).1
          (applyOnce backend digest faults kind candidate s).2) := apply_wp hcontract
  rcases happly with ⟨hnot, hatomic⟩ | ⟨hlost, e, hr, hplain, hlive, hjournal, hmoved⟩
  · exact ⟨fun _ h => hnot h.1, fun _ => hatomic⟩
  · rw [hr]
    constructor
    · rintro (⟨_, hsame⟩ | ⟨_, hverified⟩ | hdemands) ⟨_, hfresh⟩
      · exact hmoved hsame
      · exact hfresh (hlive ▸ hverified)
      · exact Bool.noConfusion (hplain.symm.trans hdemands)
    · intro hnot
      have hverified : Verified backend live kind candidate (live s.host) := by
        by_contra hfresh
        exact hnot ⟨hlost, hfresh⟩
      exact Or.inr (Or.inl ⟨hjournal, hlive ▸ hverified⟩)

end Main

section Sample

/-- The mock host of the tests of `apply.rs`. -/
structure MockHost where
  live : Option DesiredState
  staged : Option DesiredState
  deriving DecidableEq, Repr

def mockBackend : HostBackend MockHost (Option DesiredState) where
  new _ h := (h, .ok ())
  snapshot _ h := (h, .ok h.live)
  stage _ candidate h := ({ h with staged := some candidate }, .ok ())
  activate _ h := (⟨h.staged, none⟩, .ok ())
  verify _ candidate h :=
    (h, if h.live = some candidate then .ok () else .error "host mismatch")
  rollback _ saved _ := (⟨saved, none⟩, .ok ())

theorem mockBackend_contract : Contract mockBackend MockHost.live where
  snapshot_keeps := fun _ _ => rfl
  rollback_restores := by
    intro k b b₁ b' b₂ saved hsnapshot hroll
    cases hsnapshot
    cases hroll
    rfl

/-- A state with one peer. -/
def sampleState (revision : Nat) : DesiredState where
  revision := revision
  serverPublicKey := "AQEBAQEBAQEBAQEBAQEBAQEBAQEBAQEBAQEBAQEBAQE="
  peers :=
    [ { publicKey := "AgICAgICAgICAgICAgICAgICAgICAgICAgICAgICAgI="
        vpnIp := 0x0A000002#32, enabled := true, presharedKey := none
        persistentKeepalive := 30 } ]

/-- A stand-in for SHA-256 that tells the sample states apart. -/
def sampleDigest (s : DesiredState) : String :=
  String.ofList (List.replicate s.revision 'f')

/-- Revision 1 is applied. -/
def sampleAgent : AgentSys MockHost where
  journal := .holds (entryOf sampleDigest (sampleState 1))
  lock := none
  host := ⟨some (sampleState 1), none⟩
  atRelease := fun _ => none

def sampleKind : BackendKind := .peerUpdate (entryOf sampleDigest (sampleState 1))

theorem apply_atomic_sample :
    Atomic mockBackend sampleDigest MockHost.live sampleKind (sampleState 2) sampleAgent
      (applyOnce mockBackend sampleDigest (fun _ => true) sampleKind (sampleState 2)
        sampleAgent).1
      (applyOnce mockBackend sampleDigest (fun _ => true) sampleKind (sampleState 2)
        sampleAgent).2 := by
  refine (apply_atomic_iff mockBackend_contract sampleAgent).mpr ?_
  rintro ⟨⟨_, _, _, _, _, _, _, _, _, _, _, _, _, _, _, _, _, _, hsync, _⟩, _⟩
  cases hsync

/-- The directory cannot be synced after the rename and the journal cannot be
read back. -/
def blindFaults : AgentCmd (Option DesiredState) → Bool
  | .syncDirectory => false
  | .load .confirm => false
  | _ => true

/-- The host goes back to revision 1, the journal holds revision 2, and the
error says that the previous state was restored. -/
theorem journal_moves_without_host :
    Contract mockBackend MockHost.live ∧
      ¬Atomic mockBackend sampleDigest MockHost.live sampleKind (sampleState 2) sampleAgent
        (applyOnce mockBackend sampleDigest blindFaults sampleKind (sampleState 2) sampleAgent).1
        (applyOnce mockBackend sampleDigest blindFaults sampleKind (sampleState 2)
          sampleAgent).2 := by
  refine ⟨mockBackend_contract, ?_⟩
  have hresult : (applyOnce mockBackend sampleDigest blindFaults sampleKind (sampleState 2)
      sampleAgent).2 = .error (.restored (.record "sync directory")) := by
    decide
  have hjournal : (applyOnce mockBackend sampleDigest blindFaults sampleKind (sampleState 2)
      sampleAgent).1.journal ≠ sampleAgent.journal := by
    decide
  have hlive : (applyOnce mockBackend sampleDigest blindFaults sampleKind (sampleState 2)
      sampleAgent).1.host.live = some (sampleState 1) := by
    decide
  rw [hresult]
  rintro (⟨_, hsame⟩ | ⟨_, b, b', hverify, hb'⟩ | hdemands)
  · exact hjournal hsame
  · rw [hlive] at hb'
    simp only [mockBackend] at hverify
    split at hverify
    · rename_i hcandidate
      cases hverify
      rw [hcandidate] at hb'
      exact absurd hb' (by decide)
    · cases hverify
  · cases hdemands

end Sample

end HostAgent
end ZeroVpn
