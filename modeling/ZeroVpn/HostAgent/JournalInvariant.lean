import ZeroVpn.HostAgent.ApplyAtomicity

/-!
# The journal under several agent processes

Any number of `apply_state` requests and `restore_from_journal` runs, in any
processes, interleave call by call; each of them may die between two calls.
Only the holder of the lock writes the journal, so what it read under the lock
is still there when it writes.
-/

namespace ZeroVpn

open Library
open Library.Attempt (Issues issues_bind issues_pure issues_lift issues_throw)

namespace HostAgent

variable {B Snapshot : Type}

inductive AgentRequest where
  | applyState (candidate : DesiredState)
  | restore
  deriving DecidableEq, Repr

section System

variable (backend : HostBackend B Snapshot) (digest : DesiredState → String)

/-- The program of a request. -/
def AgentRequest.body : AgentRequest →
    Program (AgentCmd Snapshot) AgentCmd.Reply (Except AgentError AppliedState)
  | applyState candidate => (HostAgent.applyState digest candidate).run
  | restore => restoreFromJournal.run

/-- Requests of all processes.  The kernel drops the lock of a process that
dies; a reboot kills every process. -/
def agentSystem :
    System (AgentSys B) AgentRequest Unit (AgentCmd Snapshot) AgentCmd.Reply
      (Except AgentError AppliedState) where
  body := AgentRequest.body digest
  sem i c ok s := c.sem backend digest i ok s
  crash i s := if s.lock = some i then { s with lock := none } else s
  restart _ s := { s with lock := none }

end System

/-- What a request knows. -/
inductive Phase where
  | idle
  /-- It holds the lock, and the journal is this one. -/
  | holding (journal : JournalFile)
  /-- It released the lock, and the journal was this one. -/
  | released (journal : JournalFile)

/-- A phase is true of the shared state. -/
def Phase.Fits (s : AgentSys B) (i : Nat) : Phase → Prop
  | idle => s.lock ≠ some i
  | holding journal => s.lock = some i ∧ s.journal = journal
  | released journal => s.lock ≠ some i ∧ s.atRelease i = some journal

/-- Every request is right about its phase. -/
def InPhase (s : AgentSys B) (μ : Nat → Phase) : Prop := ∀ i, (μ i).Fits s i

section Requests

variable {backend : HostBackend B Snapshot} {digest : DesiredState → String}

/-- A write of the journal is the commit of an accepted candidate. -/
def CommitsAccepted (digest : DesiredState → String) (t : AgentRequest)
    (c : AgentCmd Snapshot) (s : AgentSys B) : Prop :=
  match c with
  | .persist applied => ∃ candidate previous,
      t = .applyState candidate ∧ applied = entryOf digest candidate ∧
        s.journal.load digest = .ok previous ∧ Accepted previous candidate
  | _ => True

/-- The calls that touch neither the journal nor the lock. -/
def Quiet : AgentCmd Snapshot → Prop
  | .acquireLock | .releaseLock | .persist _ => False
  | _ => True

/-- A quiet call changes the host at most. -/
theorem sem_quiet (backend : HostBackend B Snapshot) (digest : DesiredState → String)
    {c : AgentCmd Snapshot} (hc : Quiet c) (i : Nat) (ok : Bool) (s : AgentSys B) :
    (c.sem backend digest i ok s).1.journal = s.journal ∧
      (c.sem backend digest i ok s).1.lock = s.lock ∧
      (c.sem backend digest i ok s).1.atRelease = s.atRelease := by
  cases c with
  | acquireLock | releaseLock | persist _ =>
      exact hc.elim
  | load _ =>
      cases ok with
      | false =>
          exact ⟨rfl, rfl, rfl⟩
      | true =>
          exact ⟨rfl, rfl, rfl⟩
  | _ =>
      exact ⟨rfl, rfl, rfl⟩

variable {i : Nat} {t : AgentRequest} {α β : Type} {m : Phase}

/-- A request may run `p` in phase `m`, and ends with `Q`. -/
abbrev Runs (backend : HostBackend B Snapshot) (digest : DesiredState → String) (i : Nat)
    (t : AgentRequest) (Q : Except AgentError α → Phase → Prop) (p : Agent Snapshot α)
    (m : Phase) : Prop :=
  SafeThen (agentSystem backend digest) InPhase (CommitsAccepted digest) (fun _ _ _ => True)
    i t Q p.run m

theorem InPhase.quiet {s : AgentSys B} {μ : Nat → Phase} (h : InPhase s μ)
    {c : AgentCmd Snapshot} (hc : Quiet c) (ok : Bool) :
    InPhase (c.sem backend digest i ok s).1 μ := by
  obtain ⟨hjournal, hlock, hrelease⟩ := sem_quiet backend digest hc i ok s
  intro j
  have hj := h j
  cases hphase : μ j with
  | idle =>
      rw [hphase] at hj
      simpa only [Phase.Fits, hlock] using hj
  | holding journal =>
      rw [hphase] at hj
      simpa only [Phase.Fits, hlock, hjournal] using hj
  | released journal =>
      rw [hphase] at hj
      simpa only [Phase.Fits, hlock, hrelease] using hj

theorem quiet_runs {Q : Except AgentError α → Phase → Prop} {p : Agent Snapshot α}
    (hp : Issues Quiet p) (hQ : ∀ r, Q r m) : Runs backend digest i t Q p m := by
  refine safeThen_of_calls (P := Quiet) ?_ ?_ hp hQ
  · intro c s μ hc _
    cases c with
    | persist _ =>
        exact hc.elim
    | _ =>
        trivial
  · intro c s μ ok hc hs _
    exact InPhase.quiet hs hc ok

/-- A sequence that starts with quiet calls. -/
theorem quiet_then {Q : Except AgentError β → Phase → Prop} {p : Agent Snapshot α}
    {k : α → Agent Snapshot β} (hp : Issues Quiet p)
    (hk : ∀ a, Runs backend digest i t Q (k a) m) (herror : ∀ e, Q (.error e) m) :
    Runs backend digest i t Q (p >>= k) m := by
  refine SafeThen.attempt_bind (quiet_runs (Q := fun _ m' => m' = m) hp fun _ => rfl) ?_ ?_
  · rintro a m' rfl
    exact hk a
  · rintro e m' rfl
    exact herror e

theorem issues_ask {P : AgentCmd Snapshot → Prop} {c : AgentCmd Snapshot} (h : P c) :
    Issues P (ask c) := issues_lift h

theorem issues_outcome {P : AgentCmd Snapshot → Prop} {p : Agent Snapshot α}
    (h : Issues P p) : Issues P (Attempt.outcome p) :=
  Program.Calls.bind h fun _ => trivial

theorem mutateHost_issues (kind : BackendKind) (candidate : DesiredState) :
    Issues Quiet (mutateHost kind candidate : Agent Snapshot Unit) := by
  refine issues_bind (issues_lift trivial) fun _ => ?_
  refine issues_bind (issues_lift trivial) fun _ => ?_
  exact issues_lift trivial

theorem restoreLocked_issues : Issues Quiet (restoreLocked : Agent Snapshot AppliedState) := by
  refine issues_bind (issues_lift trivial) fun previous => ?_
  cases previous with
  | none =>
      exact issues_throw _
  | some applied =>
      refine issues_bind (issues_lift trivial) fun _ => ?_
      refine issues_bind (issues_ask trivial) fun r => ?_
      rcases r with e | saved
      · exact issues_throw _
      · refine issues_bind (issues_outcome (mutateHost_issues _ _)) fun r => ?_
        rcases r with e | _
        · refine issues_bind (issues_ask trivial) fun r => ?_
          rcases r with e' | _
          · exact issues_bind (issues_ask trivial) fun _ => issues_throw _
          · exact issues_bind (issues_lift trivial) fun _ => issues_throw _
        · exact issues_bind (issues_lift trivial) fun _ => issues_pure _

/-- What the holder of the lock reads is the journal. -/
theorem load_runs {journal : JournalFile} (site : LoadSite) :
    Runs backend digest i t
      (fun r m => m = .holding journal ∧
        ∀ previous, r = .ok previous → journal.load digest = .ok previous)
      (load site : Agent Snapshot (Option AppliedState)) (.holding journal) := by
  intro s μ hI hi
  refine ⟨trivial, ?_⟩
  intro ok _
  have hfits := hI i
  rw [hi] at hfits
  refine ⟨.holding journal, ?_, rfl, ?_⟩
  · rw [← hi, Function.update_eq_self]
    exact InPhase.quiet (c := .load site) hI trivial ok
  · intro previous hprevious
    cases ok with
    | false =>
        cases hprevious
    | true =>
        change (s.journal.load digest).mapError AgentError.load = .ok previous at hprevious
        rw [hfits.2] at hprevious
        cases hload : journal.load digest with
        | error e =>
            rw [hload] at hprevious
            cases hprevious
        | ok previous' =>
            rw [hload] at hprevious
            cases hprevious
            rfl

/-- The holder of the lock replaces the journal. -/
theorem InPhase.persist {s : AgentSys B} {μ : Nat → Phase} (h : InPhase s μ)
    {journal : JournalFile} (hi : μ i = .holding journal) (applied : AppliedState) :
    InPhase { s with journal := .holds applied }
      (Function.update μ i (.holding (.holds applied))) := by
  have hlock : s.lock = some i := by
    have hfits := h i
    rw [hi] at hfits
    exact hfits.1
  intro j
  by_cases hj : j = i
  · subst hj
    rw [Function.update_self]
    exact ⟨hlock, rfl⟩
  · rw [Function.update_of_ne hj]
    have hfits := h j
    cases hphase : μ j with
    | idle =>
        rw [hphase] at hfits
        exact hfits
    | holding journal' =>
        rw [hphase] at hfits
        have hsame : some i = some j := hlock.symm.trans hfits.1
        exact absurd (Option.some.inj hsame).symm hj
    | released journal' =>
        rw [hphase] at hfits
        exact hfits

/-- Still holding the lock; a success has left the candidate in the journal. -/
def Committed (digest : DesiredState → String) (candidate : DesiredState)
    (applied : α → AppliedState) (r : Except AgentError α) (m : Phase) : Prop :=
  ∃ journal, m = .holding journal ∧
    ∀ a, r = .ok a → applied a = entryOf digest candidate ∧
      journal = .holds (entryOf digest candidate)

theorem persist_runs {journal : JournalFile} {previous : Option AppliedState}
    {candidate : DesiredState} (hload : journal.load digest = .ok previous)
    (haccepted : Accepted previous candidate) (e : AgentError) :
    Runs backend digest i (.applyState candidate)
      (fun r m => ∃ journal', m = .holding journal' ∧
        ∀ u, r = .ok u → journal' = .holds (entryOf digest candidate))
      (io (.persist (entryOf digest candidate)) id e : Agent Snapshot Unit)
      (.holding journal) := by
  intro s μ hI hi
  have hfits := hI i
  rw [hi] at hfits
  refine ⟨⟨candidate, previous, rfl, rfl, hfits.2 ▸ hload, haccepted⟩, ?_⟩
  intro ok _
  cases ok with
  | false =>
      refine ⟨.holding journal, ?_, journal, rfl, ?_⟩
      · rw [← hi, Function.update_eq_self]
        exact hI
      · intro u hu
        cases hu
  | true =>
      exact ⟨.holding (.holds (entryOf digest candidate)), hI.persist hi _, _, rfl,
        fun _ _ => rfl⟩

theorem committed_error {candidate : DesiredState} {applied : α → AppliedState}
    {journal : JournalFile} (e : AgentError) :
    Committed digest candidate applied (.error e) (.holding journal) := by
  refine ⟨journal, rfl, ?_⟩
  intro a ha
  cases ha

theorem recordApplied_runs {journal : JournalFile} {previous : Option AppliedState}
    {candidate : DesiredState} (hload : journal.load digest = .ok previous)
    (haccepted : Accepted previous candidate) :
    Runs backend digest i (.applyState candidate) (Committed digest candidate id)
      (recordApplied digest candidate : Agent Snapshot AppliedState) (.holding journal) := by
  unfold recordApplied
  refine SafeThen.attempt_bind (load_runs .record) ?_ ?_
  · rintro previous' m ⟨rfl, hread⟩
    have hsame := hload.symm.trans (hread previous' rfl)
    cases hsame
    have hvalid : candidate.validate digest (priorRevision previous) = .ok (digest candidate) :=
      (DesiredState.validate_eq_ok digest).mpr ⟨haccepted.1, haccepted.2.2, rfl⟩
    rw [hvalid]
    refine SafeThen.attempt_bind
      (Q := fun r m => r = .ok (digest candidate) ∧ m = .holding journal) ⟨rfl, rfl⟩ ?_ ?_
    · rintro d m ⟨hd, rfl⟩
      cases hd
      refine quiet_then (issues_lift trivial) (fun _ => ?_) committed_error
      refine SafeThen.attempt_bind (persist_runs hload haccepted _) ?_ ?_
      · rintro _ m ⟨journal', rfl, hwritten⟩
        have hdone := hwritten () rfl
        subst hdone
        refine quiet_then (issues_lift trivial) (fun _ => ?_) committed_error
        refine ⟨_, rfl, ?_⟩
        intro a ha
        cases ha
        exact ⟨rfl, rfl⟩
      · rintro e m ⟨journal', rfl, _⟩
        exact committed_error e
    · rintro e m ⟨he, _⟩
      cases he
  · rintro e m ⟨rfl, _⟩
    exact committed_error e

theorem rollbackFailure_runs {candidate : DesiredState} {journal : JournalFile}
    (kind : BackendKind) (saved : Snapshot) (revision : Nat) (d : String) (error : AgentError) :
    Runs backend digest i t (Committed digest candidate ApplyOutcome.applied)
      (rollbackFailure kind saved revision d error) (.holding journal) := by
  unfold rollbackFailure
  refine quiet_then (issues_ask trivial) (fun r => ?_) committed_error
  rcases r with e | _
  · exact quiet_then (issues_ask trivial) (fun _ => committed_error _) committed_error
  · exact quiet_then (issues_lift trivial) (fun _ => committed_error _) committed_error

theorem commit_runs {journal : JournalFile} {previous : Option AppliedState}
    {candidate : DesiredState} (hload : journal.load digest = .ok previous)
    (haccepted : Accepted previous candidate) (kind : BackendKind) (saved : Snapshot)
    (prior : Nat) :
    Runs backend digest i (.applyState candidate) (Committed digest candidate ApplyOutcome.applied)
      (commit digest kind candidate saved prior) (.holding journal) := by
  unfold commit
  refine quiet_then (issues_outcome (issues_lift trivial)) (fun r => ?_) committed_error
  rcases r with e | _
  · exact rollbackFailure_runs _ _ _ _ _
  · refine SafeThen.attempt_bind (SafeThen.outcome
      (SafeThen.mono (recordApplied_runs hload haccepted) ?_))
      (Q := fun r m => ∃ r', r = .ok r' ∧ Committed digest candidate id r' m) ?_ ?_
    · intro r m hr
      exact ⟨r, rfl, hr⟩
    · rintro r m ⟨r', hr', journal', rfl, hcommitted⟩
      cases hr'
      rcases r with e | applied
      · refine quiet_then (issues_ask trivial) (fun found => ?_) committed_error
        split
        · exact quiet_then (issues_ask trivial) (fun _ => committed_error _) committed_error
        · exact rollbackFailure_runs _ _ _ _ _
      · obtain ⟨happlied, rfl⟩ := hcommitted applied rfl
        have happlied' : applied = entryOf digest candidate := happlied
        subst happlied'
        dsimp only
        rw [if_neg (by simp [entryOf])]
        refine quiet_then (issues_ask trivial) (fun written => ?_) committed_error
        refine ⟨_, rfl, ?_⟩
        intro a ha
        cases ha
        exact ⟨rfl, rfl⟩
    · rintro e m ⟨r', hr', _⟩
      cases hr'

theorem applyAccepted_runs {journal : JournalFile} {previous : Option AppliedState}
    {candidate : DesiredState} (hload : journal.load digest = .ok previous)
    (haccepted : Accepted previous candidate) (kind : BackendKind) (prior : Nat) :
    Runs backend digest i (.applyState candidate) (Committed digest candidate ApplyOutcome.applied)
      (applyAccepted digest kind candidate prior : Agent Snapshot ApplyOutcome)
      (.holding journal) := by
  unfold applyAccepted
  refine quiet_then (issues_lift trivial) (fun _ => ?_) committed_error
  refine quiet_then (issues_ask trivial) (fun r => ?_) committed_error
  rcases r with e | saved
  · exact quiet_then (issues_lift trivial) (fun _ => committed_error _) committed_error
  · refine quiet_then (issues_outcome (mutateHost_issues _ _)) (fun r => ?_) committed_error
    rcases r with e | _
    · exact rollbackFailure_runs _ _ _ _ _
    · exact commit_runs hload haccepted kind saved prior

theorem applyLocked_runs {journal : JournalFile} (kind : BackendKind)
    (candidate : DesiredState) :
    Runs backend digest i (.applyState candidate) (Committed digest candidate ApplyOutcome.applied)
      (applyLocked digest kind candidate : Agent Snapshot ApplyOutcome) (.holding journal) := by
  unfold applyLocked
  refine SafeThen.attempt_bind (load_runs .locked) ?_ ?_
  · rintro previous m ⟨rfl, hread⟩
    have hload := hread previous rfl
    dsimp only
    split
    · exact quiet_then (issues_lift trivial) (fun _ => committed_error _) committed_error
    · split
      · exact quiet_then (issues_lift trivial) (fun _ => committed_error _) committed_error
      · rename_i hidentity
        split
        · exact quiet_then (issues_lift trivial) (fun _ => committed_error _) committed_error
        · rename_i d hvalid
          obtain ⟨hrevision, hcontent, _⟩ := (DesiredState.validate_eq_ok digest).mp hvalid
          have haccepted : Accepted previous candidate :=
            ⟨hrevision, by simpa using hidentity, hcontent⟩
          exact applyAccepted_runs hload haccepted kind _
  · rintro e m ⟨rfl, _⟩
    exact committed_error e

/-- A request that is not in a phase with the lock is not affected by it. -/
theorem fits_of_other {s s' : AgentSys B} {j : Nat} {phase : Phase}
    (h : phase.Fits s j) (hfree : s.lock ≠ some j) (hfree' : s'.lock ≠ some j)
    (hrelease : s'.atRelease j = s.atRelease j) : phase.Fits s' j := by
  cases phase with
  | idle =>
      exact hfree'
  | holding journal =>
      exact absurd h.1 hfree
  | released journal =>
      exact ⟨hfree', hrelease.trans h.2⟩

theorem acquireLock_runs :
    Runs backend digest i t
      (fun r m => match r with
        | .ok _ => ∃ journal, m = .holding journal
        | .error _ => m = .idle)
      (io .acquireLock id .lock : Agent Snapshot Unit) .idle := by
  intro s μ hI hi
  refine ⟨trivial, ?_⟩
  intro ok _
  have hsem : (agentSystem backend digest).sem i .acquireLock ok s =
      if ok && s.lock.isNone then ({ s with lock := some i }, true) else (s, false) := rfl
  rw [hsem]
  by_cases hfree : (ok && s.lock.isNone) = true
  · rw [if_pos hfree]
    rw [Bool.and_eq_true, Option.isNone_iff_eq_none] at hfree
    refine ⟨.holding s.journal, ?_, s.journal, rfl⟩
    intro j
    by_cases hj : j = i
    · subst hj
      rw [Function.update_self]
      exact ⟨rfl, rfl⟩
    · rw [Function.update_of_ne hj]
      refine fits_of_other (hI j) ?_ ?_ rfl
      · rw [hfree.2]
        exact (Option.some_ne_none j).symm
      · intro heq
        exact hj (Option.some.inj heq).symm
  · rw [if_neg hfree]
    refine ⟨.idle, ?_, rfl⟩
    rw [← hi, Function.update_eq_self]
    exact hI

theorem releaseLock_runs {journal : JournalFile} :
    Runs backend digest i t (fun r m => r = .ok () ∧ m = .released journal)
      (ask .releaseLock : Agent Snapshot Unit) (.holding journal) := by
  intro s μ hI hi
  refine ⟨trivial, ?_⟩
  intro ok _
  have hfits := hI i
  rw [hi] at hfits
  refine ⟨.released journal, ?_, rfl, rfl⟩
  intro j
  by_cases hj : j = i
  · subst hj
    rw [Function.update_self]
    refine ⟨(Option.some_ne_none j).symm, ?_⟩
    rw [← hfits.2]
    exact Function.update_self ..
  · rw [Function.update_of_ne hj]
    refine fits_of_other (hI j) ?_ (Option.some_ne_none j).symm (Function.update_of_ne hj ..)
    rw [hfits.1]
    intro heq
    exact hj (Option.some.inj heq).symm

/-- A body under the lock: a success is reported with the journal at the
instant of the release. -/
theorem withLock_runs {body : Agent Snapshot α} {R : α → JournalFile → Prop}
    (hbody : ∀ journal, Runs backend digest i t
      (fun r m => ∃ journal', m = .holding journal' ∧ ∀ a, r = .ok a → R a journal')
      body (.holding journal)) :
    Runs backend digest i t
      (fun r m => ∀ a, r = .ok a → ∃ journal', m = .released journal' ∧ R a journal')
      (withLock body) .idle := by
  unfold withLock
  refine SafeThen.attempt_bind acquireLock_runs ?_ ?_
  · rintro _ m ⟨journal, rfl⟩
    refine SafeThen.attempt_bind (SafeThen.outcome (SafeThen.mono (hbody journal) ?_))
      (Q := fun r m => ∃ r', r = .ok r' ∧
        ∃ journal', m = .holding journal' ∧ ∀ a, r' = .ok a → R a journal') ?_ ?_
    · intro r m hr
      exact ⟨r, rfl, hr⟩
    · rintro r m ⟨r', hr', journal', rfl, hR⟩
      cases hr'
      refine SafeThen.attempt_bind releaseLock_runs ?_ ?_
      · rintro _ m ⟨_, rfl⟩
        cases r with
        | error e =>
            intro a ha
            cases ha
        | ok a' =>
            intro a ha
            cases ha
            exact ⟨journal', rfl, hR a' rfl⟩
      · rintro e m ⟨he, _⟩
        cases he
    · rintro e m ⟨r', hr', _⟩
      cases hr'
  · intro e m _ a ha
    cases ha

/-- A successful apply left its candidate in the journal when it released the
lock. -/
def LeavesCandidate (digest : DesiredState → String) (t : AgentRequest)
    (r : Except AgentError AppliedState) (m : Phase) : Prop :=
  ∀ candidate applied, t = .applyState candidate → r = .ok applied →
    applied = entryOf digest candidate ∧ m = .released (.holds (entryOf digest candidate))

theorem applyState_runs (candidate : DesiredState) :
    Runs backend digest i (.applyState candidate)
      (LeavesCandidate digest (.applyState candidate))
      (applyState digest candidate : Agent Snapshot AppliedState) .idle := by
  have herror : ∀ e m, LeavesCandidate digest (.applyState candidate) (.error e) m := by
    intro e m c a _ ha
    cases ha
  unfold applyState
  refine quiet_then (issues_lift trivial) (fun previous => ?_) fun e => herror e _
  refine quiet_then (issues_lift trivial) (fun _ => ?_) fun e => herror e _
  refine SafeThen.attempt_bind (withLock_runs
    (R := fun out journal => out.applied = entryOf digest candidate ∧
      journal = .holds (entryOf digest candidate))
    fun journal => applyLocked_runs _ candidate) ?_ fun e m _ => herror e m
  intro out m hout c a hc ha
  cases hc
  cases ha
  obtain ⟨journal', rfl, happlied, rfl⟩ := hout out rfl
  exact ⟨happlied, rfl⟩

theorem restore_runs :
    Runs backend digest i .restore (LeavesCandidate digest .restore)
      (restoreFromJournal : Agent Snapshot AppliedState) .idle := by
  have hbody : ∀ journal, Runs backend digest i .restore
      (fun r m => ∃ journal', m = .holding journal' ∧
        ∀ a, r = Except.ok a → (fun (_ : AppliedState) (_ : JournalFile) => True) a journal')
      (restoreLocked : Agent Snapshot AppliedState) (.holding journal) := by
    intro journal
    exact quiet_runs restoreLocked_issues fun r => ⟨journal, rfl, fun _ _ => trivial⟩
  refine SafeThen.mono (withLock_runs hbody) ?_
  intro r m _ c a hc
  cases hc

end Requests

section Journal

variable (backend : HostBackend B Snapshot) (digest : DesiredState → String)

/-- The pool of agent requests. -/
abbrev AgentPool (B Snapshot : Type) :=
  Pool (AgentSys B) AgentRequest (AgentCmd Snapshot) AgentCmd.Reply
    (Except AgentError AppliedState)

/-- A host with any journal, on which no request runs. -/
def agentIdle (journal : JournalFile) (host : B) : AgentPool B Snapshot where
  shared := { journal := journal, lock := none, host := host, atRelease := fun _ => none }
  threads := []

/-- The entry may follow what the journal holds. -/
structure Follows (journal : JournalFile) (applied : AppliedState) : Prop where
  readable : (JournalFile.holds applied).load digest = .ok (some applied)
  grows : ∃ previous, journal.load digest = .ok previous ∧
    priorRevision previous < applied.state.revision ∧
      ∀ old, previous = some old →
        old.state.serverPublicKey = applied.state.serverPublicKey

/-- What holds of the journal and of the requests in every state. -/
structure JournalOk (p : AgentPool B Snapshot) : Prop where
  /-- A journal that can be loaded passes validation under its own digest. -/
  loaded : ∀ applied, p.shared.journal.load digest = .ok (some applied) →
    applied.state.validate digest (applied.state.revision - 1) = .ok applied.digest ∧
      applied.digest = digest applied.state
  /-- A write is the commit of an apply, with a higher revision and the same
  server key. -/
  written : ∀ i t applied, nextCall p i = some (t, .persist applied) →
    Follows digest p.shared.journal applied ∧
      ∃ candidate, t = .applyState candidate ∧ applied = entryOf digest candidate
  /-- A successful apply left its candidate in the journal when it released the
  lock. -/
  finished : ∀ i candidate applied,
    p.threads[i]? = some (.applyState candidate, some (.ret (.ok applied))) →
      applied = entryOf digest candidate ∧
        p.shared.atRelease i = some (.holds (entryOf digest candidate))

/-- Only the write of a request changes the journal. -/
def WritesJournal (p : AgentPool B Snapshot) (e : PoolEvent AgentRequest Unit) : Prop :=
  (poolStep (agentSystem backend digest) p e).shared.journal = p.shared.journal ∨
    ∃ i t applied, e = .step i true ∧ nextCall p i = some (t, .persist applied) ∧
      (poolStep (agentSystem backend digest) p e).shared.journal = .holds applied

/-- The pool invariant of the agents. -/
abbrev AgentInv (p : AgentPool B Snapshot) : Prop :=
  PoolInv (agentSystem backend digest) InPhase (CommitsAccepted digest) (fun _ _ _ => True)
    (fun _ t r m => LeavesCandidate digest t r m) .idle p

variable {backend digest}

theorem inPhase_crash {s : AgentSys B} {μ : Nat → Phase} (i : Nat) (h : InPhase s μ) :
    InPhase ((agentSystem backend digest).crash i s) (Function.update μ i .idle) := by
  have hcrash : (agentSystem backend digest).crash i s =
      if s.lock = some i then { s with lock := none } else s := rfl
  rw [hcrash]
  intro j
  by_cases hlock : s.lock = some i
  · rw [if_pos hlock]
    by_cases hj : j = i
    · subst hj
      rw [Function.update_self]
      exact (Option.some_ne_none j).symm
    · rw [Function.update_of_ne hj]
      refine fits_of_other (h j) ?_ (Option.some_ne_none j).symm rfl
      rw [hlock]
      intro heq
      exact hj (Option.some.inj heq).symm
  · rw [if_neg hlock]
    by_cases hj : j = i
    · subst hj
      rw [Function.update_self]
      exact hlock
    · rw [Function.update_of_ne hj]
      exact h j

theorem agentInv_step (p : AgentPool B Snapshot) (e : PoolEvent AgentRequest Unit)
    (h : AgentInv backend digest p) :
    AgentInv backend digest (poolStep (agentSystem backend digest) p e) := by
  have hmeets : EventMeets (fun _ _ _ => True) (fun _ => True) (fun _ _ => True) p e := by
    cases e with
    | spawn t =>
        trivial
    | step i ok =>
        intro _ _ _
        trivial
    | crash i =>
        trivial
    | restart g =>
        trivial
  refine poolInv_step ?_ ?_ ?_ p e h hmeets
  · intro t _ i
    cases t with
    | applyState candidate =>
        exact applyState_runs candidate
    | restore =>
        exact restore_runs
  · intro i s μ hs
    exact inPhase_crash i hs
  · intro _ s μ _ _ j
    exact (Option.some_ne_none j).symm

theorem agentInv_idle (journal : JournalFile) (host : B) :
    AgentInv backend digest (agentIdle journal host : AgentPool B Snapshot) :=
  poolInv_init fun j => (Option.some_ne_none j).symm

/-- The journal only changes under the write of a request. -/
theorem writesJournal (p : AgentPool B Snapshot) (e : PoolEvent AgentRequest Unit) :
    WritesJournal backend digest p e := by
  cases e with
  | spawn t =>
      exact Or.inl rfl
  | restart g =>
      exact Or.inl rfl
  | crash i =>
      refine Or.inl ?_
      simp only [poolStep]
      split
      · simp only [agentSystem]
        split
        · rfl
        · rfl
      · rfl
  | step i ok =>
      simp only [WritesJournal, poolStep]
      split
      · rename_i t c k hi
        by_cases hc : Quiet c
        · exact Or.inl (sem_quiet backend digest hc i ok p.shared).1
        · cases c with
          | acquireLock =>
              refine Or.inl ?_
              simp only [agentSystem, AgentCmd.sem]
              split
              · rfl
              · rfl
          | releaseLock =>
              exact Or.inl rfl
          | persist applied =>
              cases ok with
              | false =>
                  exact Or.inl rfl
              | true =>
                  exact Or.inr ⟨i, t, applied, rfl, by simp only [nextCall, hi], rfl⟩
          | _ =>
              exact absurd trivial hc
      · exact Or.inl rfl

theorem journalOk_of_inv {p : AgentPool B Snapshot} (h : AgentInv backend digest p) :
    JournalOk digest p := by
  constructor
  case loaded =>
    intro applied hload
    obtain ⟨_, hpositive, hcontent, hdigest⟩ := (JournalFile.load_eq_some digest).mp hload
    exact ⟨(DesiredState.validate_eq_ok digest).mpr ⟨by omega, hcontent, hdigest⟩, hdigest⟩
  case written =>
    intro i t applied hnext
    obtain ⟨candidate, previous, rfl, rfl, hload, haccepted⟩ := obligation_of_poolInv h hnext
    refine ⟨⟨load_entryOf haccepted, previous, hload, haccepted.1, ?_⟩, candidate, rfl, rfl⟩
    rintro old rfl
    have hkey : old.state.serverPublicKey = candidate.serverPublicKey := by
      simpa [changesIdentity] using haccepted.2.1
    exact hkey
  case finished =>
    intro i candidate applied hi
    obtain ⟨μ, hI, hpost⟩ := post_of_poolInv h
    obtain ⟨happlied, hphase⟩ := hpost i _ _ hi candidate applied rfl rfl
    have hfits := hI i
    rw [hphase] at hfits
    exact ⟨happlied, hfits.2⟩

/-- What a request left in the journal when it released the lock is still there,
or was followed by a higher revision. -/
def Released (digest : DesiredState → String) (s : AgentSys B) : Prop :=
  ∀ r file applied, s.atRelease r = some file → file.load digest = .ok (some applied) →
    ∃ current, s.journal.load digest = .ok (some current) ∧
      (current = applied ∨ applied.state.revision < current.state.revision)

/-- A release keeps the journal, and nothing else sets `atRelease`. -/
theorem atRelease_step (p : AgentPool B Snapshot) (e : PoolEvent AgentRequest Unit) :
    (poolStep (agentSystem backend digest) p e).shared.atRelease = p.shared.atRelease ∨
      (poolStep (agentSystem backend digest) p e).shared.journal = p.shared.journal ∧
        ∃ r, (poolStep (agentSystem backend digest) p e).shared.atRelease =
          Function.update p.shared.atRelease r (some p.shared.journal) := by
  cases e with
  | spawn t =>
      exact Or.inl rfl
  | restart g =>
      exact Or.inl rfl
  | crash i =>
      refine Or.inl ?_
      simp only [poolStep]
      split
      · simp only [agentSystem]
        split
        · rfl
        · rfl
      · rfl
  | step i ok =>
      simp only [poolStep]
      split
      · rename_i t c k hi
        by_cases hc : Quiet c
        · exact Or.inl (sem_quiet backend digest hc i ok p.shared).2.2
        · cases c with
          | acquireLock =>
              refine Or.inl ?_
              simp only [agentSystem, AgentCmd.sem]
              split
              · rfl
              · rfl
          | releaseLock =>
              exact Or.inr ⟨rfl, i, rfl⟩
          | persist applied =>
              cases ok with
              | false =>
                  exact Or.inl rfl
              | true =>
                  exact Or.inl rfl
          | _ =>
              exact absurd trivial hc
      · exact Or.inl rfl

theorem released_step {p : AgentPool B Snapshot} (h : AgentInv backend digest p)
    (hreleased : Released digest p.shared) (e : PoolEvent AgentRequest Unit) :
    Released digest (poolStep (agentSystem backend digest) p e).shared := by
  intro r file applied hr hload
  rcases @atRelease_step B Snapshot backend digest p e with hkeep | ⟨hsame, i, hset⟩
  · rw [hkeep] at hr
    obtain ⟨current, hcurrent, hafter⟩ := hreleased r file applied hr hload
    rcases writesJournal p e with hsame | ⟨i, t, written, _, hnext, hwritten⟩
    · rw [hsame]
      exact ⟨current, hcurrent, hafter⟩
    · obtain ⟨⟨hreadable, previous, hprevious, hgrows, _⟩, _⟩ :=
        (journalOk_of_inv h).written i t written hnext
      rw [hcurrent] at hprevious
      cases hprevious
      have hlater : current.state.revision < written.state.revision := hgrows
      rw [hwritten]
      refine ⟨written, hreadable, Or.inr ?_⟩
      rcases hafter with rfl | hlt
      · exact hlater
      · exact Nat.lt_trans hlt hlater
  · rw [hset] at hr
    rw [hsame]
    by_cases hi : r = i
    · subst hi
      rw [Function.update_self] at hr
      cases hr
      exact ⟨applied, hload, Or.inl rfl⟩
    · rw [Function.update_of_ne hi] at hr
      exact hreleased r file applied hr hload

/-- What the journal held stays, or is followed by a higher revision under the
same server key. -/
def Succeeds (old new : AppliedState) : Prop :=
  old.state.revision ≤ new.state.revision ∧
    old.state.serverPublicKey = new.state.serverPublicKey

/-- One step of the journal. -/
theorem journal_step {p : AgentPool B Snapshot} (h : AgentInv backend digest p)
    (e : PoolEvent AgentRequest Unit) {old : AppliedState}
    (hold : p.shared.journal.load digest = .ok (some old)) :
    ∃ new, (poolStep (agentSystem backend digest) p e).shared.journal.load digest =
      .ok (some new) ∧ Succeeds old new := by
  rcases writesJournal p e with hsame | ⟨i, t, applied, _, hnext, hwritten⟩
  · rw [hsame]
    exact ⟨old, hold, Nat.le_refl _, rfl⟩
  · obtain ⟨⟨hreadable, previous, hload, hgrows, hkey⟩, _⟩ :=
      (journalOk_of_inv h).written i t applied hnext
    rw [hold] at hload
    cases hload
    rw [hwritten]
    exact ⟨applied, hreadable, Nat.le_of_lt hgrows, hkey old rfl⟩

/-- A run of the journal. -/
theorem journal_run {p : AgentPool B Snapshot} (h : AgentInv backend digest p)
    (es : List (PoolEvent AgentRequest Unit)) {old : AppliedState}
    (hold : p.shared.journal.load digest = .ok (some old)) :
    ∃ new, (runEvents (poolStep (agentSystem backend digest)) p es).shared.journal.load digest =
      .ok (some new) ∧ Succeeds old new := by
  induction es generalizing p old with
  | nil =>
      exact ⟨old, hold, Nat.le_refl _, rfl⟩
  | cons e es ih =>
      obtain ⟨mid, hmid, hrevision, hkey⟩ := journal_step h e hold
      obtain ⟨new, hnew, hrevision', hkey'⟩ := ih (agentInv_step p e h) hmid
      exact ⟨new, hnew, hrevision.trans hrevision', hkey.trans hkey'⟩

theorem agentInv_run {p : AgentPool B Snapshot} (h : AgentInv backend digest p)
    (es : List (PoolEvent AgentRequest Unit)) :
    AgentInv backend digest (runEvents (poolStep (agentSystem backend digest)) p es) := by
  induction es generalizing p with
  | nil =>
      exact h
  | cons e es ih =>
      exact ih (agentInv_step p e h)

/--
In every interleaving of applies and restores: a journal that loads passes
validation, every write is the commit of an apply with a higher revision and the
same server key, nothing else writes, a successful apply left its candidate in
the journal when it released the lock, and between any two states of the run
the revision does not fall and the server key stays.
-/
theorem journal_only_moves_forward (backend : HostBackend B Snapshot)
    (digest : DesiredState → String) (journal : JournalFile) (host : B)
    (es : List (PoolEvent AgentRequest Unit)) :
    Always (poolStep (agentSystem backend digest)) (JournalOk digest)
        (agentIdle journal host) es ∧
      Along (poolStep (agentSystem backend digest)) (WritesJournal backend digest)
        (agentIdle journal host) es ∧
      ∀ es₁ es₂ old, es = es₁ ++ es₂ →
        (runEvents (poolStep (agentSystem backend digest))
          (agentIdle journal host) es₁).shared.journal.load digest = .ok (some old) →
        ∃ new, (runEvents (poolStep (agentSystem backend digest))
          (agentIdle journal host) es).shared.journal.load digest = .ok (some new) ∧
            Succeeds old new := by
  refine ⟨?_, along_of_forall writesJournal _ es, ?_⟩
  · exact always_of_inv (AgentInv backend digest) agentInv_step
      (fun p hp => journalOk_of_inv hp) (agentInv_idle journal host) es
  · rintro es₁ es₂ old rfl hold
    rw [runEvents_append]
    exact journal_run (agentInv_run (agentInv_idle journal host) es₁) es₂ hold

/-- An apply of revision 2 reads the journal, another one commits revision 3,
and the first one goes on. -/
def sampleRace : List (PoolEvent AgentRequest Unit) :=
  .spawn (.applyState (sampleState 2)) :: .step 0 true ::
    .spawn (.applyState (sampleState 3)) ::
      (List.replicate 20 (.step 1 true) ++ List.replicate 20 (.step 0 true))

theorem journal_only_moves_forward_sample :
    (∃ new, (runEvents (poolStep (agentSystem mockBackend sampleDigest))
        (agentIdle sampleAgent.journal sampleAgent.host) sampleRace).shared.journal.load
          sampleDigest = .ok (some new) ∧
        Succeeds (entryOf sampleDigest (sampleState 1)) new) ∧
      (runEvents (poolStep (agentSystem mockBackend sampleDigest))
        (agentIdle sampleAgent.journal sampleAgent.host) sampleRace).shared.journal =
          .holds (entryOf sampleDigest (sampleState 3)) :=
  ⟨(journal_only_moves_forward mockBackend sampleDigest sampleAgent.journal sampleAgent.host
    sampleRace).2.2 [] sampleRace _ rfl (by decide +kernel), by decide +kernel⟩

end Journal

end HostAgent
end ZeroVpn
