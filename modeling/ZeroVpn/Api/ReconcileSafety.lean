import ZeroVpn.Api.ReconcileInvariant
import ZeroVpn.Library.PrefixCode

/-!
# Reconciliation is safe as long as no late apply meets a skip

Every call of `reconcile` keeps the invariant, and so does every event of the
writers and of the agent.

* `reconcile` sends a candidate while it holds the lock, and its revision bounds
  those of all requests.  Once the agent has applied it, no request is left that
  could write the journal.
* On the path that sends nothing, the journal has the desired content when the
  agent reports its status.  A request of an earlier process that died before
  its commit may still have a higher revision, and its write can fall between
  the report and the commit; `late_apply_meets_skip` is such a run.
-/

namespace ZeroVpn

open Library
open HostAgent

namespace Api
namespace HostAgentController

open Db (Uuid Server)

section Programs

variable {B Snapshot : Type} {backend : HostBackend B Snapshot}
variable {digest : DesiredState → String} {v : Uuid} {initial : JournalFile}
variable {α β : Type} {i : Nat} {m : CtlPhase} {db : Db} {tx : Tx} {stage : Stage}

/-- Process `i` may run `p` in phase `m`, and ends with `Q`. -/
abbrev CtlRuns (backend : HostBackend B Snapshot) (digest : DesiredState → String) (v : Uuid)
    (initial : JournalFile) (i : Nat) (Q : Except String α → CtlPhase → Prop) (p : Ctl α)
    (m : CtlPhase) : Prop :=
  SafeThen (ctlSystem backend digest) (CtlInv digest backend v initial) (fun _ _ _ => True)
    (fun _ _ _ => True) i () Q p.run m

theorem call_runs {c : CtlCmd} {f : c.Reply → Except String α}
    {Q : Except String α → CtlPhase → Prop}
    (h : ∀ s μ ok, CtlInv digest backend v initial s μ → μ i = m →
      ∃ m', CtlInv digest backend v initial (c.sem backend digest i ok s).1
          (Function.update μ i m') ∧
        Q (f (c.sem backend digest i ok s).2) m') :
    CtlRuns backend digest v initial i Q (Attempt.lift c f) m := by
  intro s μ hI hi
  exact ⟨trivial, fun ok _ => h s μ ok hI hi⟩

/-- A call that only reads. -/
theorem read_runs {c : CtlCmd} {f : c.Reply → Except String α}
    {Q : Except String α → CtlPhase → Prop}
    (hread : ∀ ok (s : CtlSys B Snapshot), (c.sem backend digest i ok s).1 = s)
    (hQ : ∀ s μ ok, CtlInv digest backend v initial s μ → μ i = m →
      Q (f (c.sem backend digest i ok s).2) m) :
    CtlRuns backend digest v initial i Q (Attempt.lift c f) m := by
  refine call_runs ?_
  intro s μ ok hI hi
  refine ⟨m, ?_, hQ s μ ok hI hi⟩
  rw [hread]
  exact hI.stay hi

theorem orReturn_runs {Q : Except String β → CtlPhase → Prop} {r : Except String α}
    {k : α → Ctl β} (hok : ∀ a, r = .ok a → CtlRuns backend digest v initial i Q (k a) m)
    (herror : ∀ e, Q (.error e) m) :
    CtlRuns backend digest v initial i Q (orReturn r >>= k) m := by
  cases r with
  | error e =>
      exact herror e
  | ok a =>
      exact hok a rfl

theorem begin_runs :
    CtlRuns backend digest v initial i
      (fun r m => ∀ u, r = .ok u → ∃ db tx, m = .holding db tx .fresh)
      (execute .begin id) .outside := by
  refine call_runs ?_
  intro s μ ok hI hi
  cases hfree : (ok && s.tx.isNone) with
  | false =>
      refine ⟨.outside, ?_, ?_⟩
      · simp only [CtlCmd.sem, hfree, Bool.false_eq_true, if_false]
        exact hI.stay hi
      · intro u hu
        simp [CtlCmd.sem, hfree] at hu
  | true =>
      rw [Bool.and_eq_true, Option.isNone_iff_eq_none] at hfree
      obtain ⟨rfl, hnone⟩ := hfree
      refine ⟨.holding s.db ⟨i, s.table, none⟩ .fresh, ?_, fun _ _ => ⟨_, _, rfl⟩⟩
      simp only [CtlCmd.sem, hnone, Option.isNone_none, Bool.and_true, if_true]
      refine ⟨hI.world.setTx _, ?_⟩
      intro j
      by_cases hj : j = i
      · subst hj
        rw [Function.update_self]
        exact ⟨rfl, rfl, rfl, hI.world.table, Nat.le_refl _, rfl⟩
      · rw [Function.update_of_ne hj]
        have hfits := hI.fits j
        cases hphase : μ j with
        | outside =>
            intro tx htx
            cases htx
            exact Ne.symm hj
        | finished c =>
            rw [hphase] at hfits
            refine ⟨?_, hfits.2⟩
            intro tx htx
            cases htx
            exact Ne.symm hj
        | holding db tx stage =>
            rw [hphase] at hfits
            have habs := hnone.symm.trans hfits.tx_eq
            cases habs

/-- What is left of a phase when the transaction is dropped. -/
def CtlPhase.dropped : CtlPhase → CtlPhase
  | finished c => finished c
  | _ => outside

theorem rollback_runs :
    CtlRuns backend digest v initial i (fun r m' => r = .ok () ∧ m' = m.dropped)
      (Attempt.lift .rollback Except.ok) m := by
  refine call_runs ?_
  intro s μ ok hI hi
  refine ⟨m.dropped, hI.rollback ?_, rfl, rfl⟩
  cases m with
  | finished c =>
      exact Or.inr ⟨c, rfl, hi⟩
  | outside =>
      exact Or.inl rfl
  | holding db tx stage =>
      exact Or.inl rfl

/-- A row of the server. -/
theorem TableOk.update {table : ReconcileTable} (h : TableOk digest v table)
    {row : ReconcileRow} (hrow : Described digest row) :
    TableOk digest v (Function.update table v (some row)) := by
  constructor
  case only =>
    intro id row' hid
    by_contra hne
    rw [Function.update_of_ne hne] at hid
    exact hne (h.only id row' hid)
  case described =>
    intro row' hv
    rw [Function.update_self] at hv
    cases hv
    exact hrow

theorem rowRevision_update (table : ReconcileTable) (row : ReconcileRow) :
    rowRevision v (Function.update table v (some row)) = row.desiredRevision := by
  simp [rowRevision]

theorem rowRevision_of_row {table : ReconcileTable} {row : ReconcileRow}
    (h : table v = some row) : rowRevision v table = row.desiredRevision := by
  simp [rowRevision, h]

/-- The row of the server exists. -/
theorem ensureRow_runs :
    CtlRuns backend digest v initial i
      (fun r m => ∀ u, r = .ok u → ∃ tx row, m = .holding db tx .fresh ∧ tx.table v = some row)
      (execute (.ensureRow v) id) (.holding db tx .fresh) := by
  refine call_runs ?_
  intro s μ ok hI hi
  cases ok with
  | false =>
      refine ⟨_, hI.stay hi, ?_⟩
      intro u hu
      cases hu
  | true =>
      have hheld := hI.holding hi
      have hrevision : rowRevision v (Function.update tx.table v
          (some ((tx.table v).getD {}))) = rowRevision v tx.table := by
        rw [rowRevision_update]
        cases hrow : tx.table v with
        | none =>
            simp [rowRevision, hrow]
        | some row =>
            simp [rowRevision, hrow]
      have hdescribed : Described digest ((tx.table v).getD {}) := by
        cases hrow : tx.table v with
        | none =>
            exact Or.inl rfl
        | some row =>
            exact hheld.table.described row hrow
      let table := Function.update tx.table v (some ((tx.table v).getD {}))
      refine ⟨.holding db { tx with table := table } .fresh,
        hI.onTx hi hheld.holder (hheld.table.update hdescribed) ?_ ?_, ?_⟩
      · rw [hrevision]
        exact hheld.grows
      · exact hrevision.trans hheld.stage
      · intro u _
        exact ⟨_, _, rfl, Function.update_self ..⟩

/-- The holder of the lock changes the row of the server. -/
theorem updateRow_runs {row : ReconcileRow} {f : ReconcileRow → ReconcileRow} {stage' : Stage}
    (hrow : tx.table v = some row) (hdescribed : Described digest row → Described digest (f row))
    (hgrows : row.desiredRevision ≤ (f row).desiredRevision)
    (hstage : ∀ s : CtlSys B Snapshot, Holding digest v s i db tx stage →
      stage'.Holds digest v
        { s with tx := some { tx with table := Function.update tx.table v (some (f row)) } }
        { tx with table := Function.update tx.table v (some (f row)) }) :
    CtlRuns backend digest v initial i
      (fun r m => ∀ u, r = .ok u → ∃ tx, m = .holding db tx stage' ∧ tx.table v = some (f row))
      (execute (.updateRow v f) id) (.holding db tx stage) := by
  refine call_runs ?_
  intro s μ ok hI hi
  cases ok with
  | false =>
      refine ⟨_, hI.stay hi, ?_⟩
      intro u hu
      cases hu
  | true =>
      have hheld := hI.holding hi
      have hset : Function.update tx.table v ((tx.table v).map f) =
          Function.update tx.table v (some (f row)) := by
        rw [hrow, Option.map_some]
      refine ⟨.holding db { tx with table := Function.update tx.table v (some (f row)) } stage',
        ?_, fun _ _ => ⟨_, rfl, Function.update_self ..⟩⟩
      rw [← hset]
      refine hI.onTx hi hheld.holder ?_ ?_ ?_
      · rw [hset]
        exact hheld.table.update (hdescribed (hheld.table.described row hrow))
      · rw [hset, rowRevision_update]
        exact hheld.grows.trans ((rowRevision_of_row hrow).trans_le hgrows)
      · rw [hset]
        exact hstage s hheld

/-- The digests of a matching row say that the journal has the content. -/
theorem content_of_upToDate (hdigest : CollisionFree digest) {journal : JournalFile}
    {row : ReconcileRow} (hdescribed : Described digest row) {key : String}
    {peers : List DesiredPeer} {previous : Option AppliedState}
    (hload : journal.load digest = .ok previous)
    (hmatch : upToDate row (digest ⟨0, key, peers⟩)
      ((previous.map fun a => a.state.revision).getD 0)
      ((previous.map fun a => a.digest).getD "") = true) :
    ∃ applied, previous = some applied ∧ applied.state.peers = peers := by
  simp only [upToDate, Bool.and_eq_true, beq_iff_eq] at hmatch
  obtain ⟨⟨hhash, hrevision⟩, hrow⟩ := hmatch
  rcases hdescribed with hempty | ⟨key', peers', hhash', hdigest'⟩
  · rw [hempty] at hhash
    exact absurd hhash.symm (hdigest.nonempty _)
  · have hcontent := hdigest.injective (hhash'.symm.trans hhash)
    cases hcontent
    cases previous with
    | none =>
        exact absurd (hdigest'.symm.trans hrow) (hdigest.nonempty _)
    | some applied =>
        have hsound := ((JournalFile.load_eq_some digest).mp hload).2
        have hstate : digest ⟨row.desiredRevision, key, peers⟩ = digest applied.state :=
          hdigest'.symm.trans (hrow.trans hsound.digest_eq)
        have hpeers := hdigest.injective hstate
        exact ⟨applied, rfl, by rw [← hpeers]⟩

/-- After the status: the row matches and the journal has the desired peers, or
the next revision is known. -/
def Informed (v : Uuid) (db : Db) (row : ReconcileRow)
    (contentHash : String) (peers : List DesiredPeer) (r : Except String (Nat × String))
    (m : CtlPhase) : Prop :=
  ∀ revision d, r = .ok (revision, d) → ∃ tx, tx.table v = some row ∧
    ((upToDate row contentHash revision d = true ∧ ∃ applied,
        m = .holding db tx (.settled applied) ∧ applied.state.revision = revision ∧
          applied.digest = d ∧ applied.state.peers = peers) ∨
      (upToDate row contentHash revision d = false ∧
        m = .holding db tx (.asked (max row.desiredRevision revision + 1))))

theorem requestStatus_runs (hdigest : CollisionFree digest) {row : ReconcileRow}
    {server : Server} {peers : List DesiredPeer} (hrow : tx.table server.id = some row)
    (hdesired : desired db = .ok (some (server, peers))) (hv : server.id = v) :
    CtlRuns backend digest v initial i
      (Informed v db row (digest ⟨0, server.publicKey, peers⟩) peers)
      requestStatus (.holding db tx .fresh) := by
  subst hv
  refine call_runs ?_
  intro s μ ok hI hi
  have hheld := hI.holding hi
  cases ok with
  | false =>
      refine ⟨_, hI.stay hi, ?_⟩
      intro revision d hr
      cases hr
  | true =>
      have hkeep : ∀ seen stage, stage.Holds digest server.id
            { s with tx := some { tx with seen := seen } } { tx with seen := seen } →
          CtlInv digest backend server.id initial (s.onTx i fun tx => { tx with seen := seen })
            (Function.update μ i (.holding db { tx with seen := seen } stage)) := by
        intro seen stage hstage
        exact hI.onTx hi hheld.holder hheld.table hheld.grows hstage
      cases hload : s.agents.shared.journal.load digest with
      | error e =>
          refine ⟨.holding db { tx with seen := none } .fresh, ?_, ?_⟩
          · simp only [CtlCmd.sem, statusResponse, hload]
            exact hkeep none .fresh hheld.stage
          · intro revision d hr
            simp [CtlCmd.sem, statusResponse, hload] at hr
      | ok previous =>
          -- what the agent answers
          have hjournal : journalRevision digest s.agents.shared.journal =
              (previous.map fun a => a.state.revision).getD 0 := by
            rw [journalRevision, hload]
            cases previous with
            | none =>
                rfl
            | some applied =>
                rfl
          generalize hrev : (previous.map fun a => a.state.revision).getD 0 = revision at hjournal
          generalize hdig : (previous.map fun a => a.digest).getD "" = d
          have hsem : (CtlCmd.sem backend digest i .stateStatus true s) =
              (s.onTx i fun tx => { tx with seen := some (revision, d) },
                some (.stateStatus (previous.map fun a => a.state.revision)
                  (previous.map fun a => a.digest))) := by
            simp only [CtlCmd.sem, statusResponse, hload, Response.status, hrev, hdig]
            rfl
          rw [hsem]
          dsimp only
          rw [hrev, hdig]
          cases hmatch : upToDate row (digest ⟨0, server.publicKey, peers⟩) revision d with
          | true =>
              obtain ⟨applied, rfl, hpeers⟩ := content_of_upToDate hdigest
                (hheld.table.described row hrow) hload
                (hrev.symm ▸ hdig.symm ▸ hmatch)
              refine ⟨_, hkeep (some (revision, d)) (.settled applied) ⟨hload, Or.inl ?_⟩, ?_⟩
              · simp only [CtlSys.skipping, hheld.db_eq, hdesired, hrow, hmatch]
              · intro revision' d' hr
                split at hr
                · cases hr
                  exact ⟨{ tx with seen := some (revision, d) }, hrow,
                    Or.inl ⟨hmatch, applied, rfl, hrev, hdig, hpeers⟩⟩
                · cases hr
          | false =>
              have hrowRevision : rowRevision server.id s.table = row.desiredRevision :=
                hheld.stage.symm.trans (rowRevision_of_row hrow)
              have hbounded := hI.world.requests.bounded
              rw [hrowRevision, hjournal] at hbounded
              refine ⟨_, hkeep (some (revision, d)) (.asked (max row.desiredRevision revision + 1))
                ⟨⟨hbounded, ?_⟩, ?_⟩, ?_⟩
              · show journalRevision digest s.agents.shared.journal ≤ _
                omega
              · show _ ≤ max (rowRevision server.id s.table)
                  (journalRevision digest s.agents.shared.journal) + 1
                omega
              · intro revision' d' hr
                split at hr
                · cases hr
                  exact ⟨{ tx with seen := some (revision, d) }, hrow, Or.inr ⟨hmatch, rfl⟩⟩
                · cases hr

/-- A commit: the journal at that instant is the settled one. -/
theorem commit_runs
    (hshows : ∀ row, tx.table v = some row → row.status = .applied →
      ∃ applied, stage = .settled applied ∧ applied.state.revision = row.appliedRevision ∧
        applied.digest = row.appliedDigest) :
    CtlRuns backend digest v initial i
      (fun r m => ∀ u, r = .ok u → ∃ c, m = .finished c ∧ c.db = db ∧
        ∀ applied, stage = .settled applied → c.journal.load digest = .ok (some applied))
      (execute .commit id) (.holding db tx stage) := by
  refine call_runs ?_
  intro s μ ok hI hi
  have hheld := hI.holding hi
  cases ok with
  | false =>
      refine ⟨.outside, ?_, ?_⟩
      · simp only [CtlCmd.sem, hheld.tx_eq, hheld.holder, if_true, Bool.false_eq_true, if_false]
        exact hI.rollback (Or.inl rfl)
      · intro u hu
        simp [CtlCmd.sem, hheld.tx_eq, hheld.holder] at hu
  | true =>
      have hsem : (CtlCmd.sem backend digest i .commit true s).1 = s.commit tx := by
        simp only [CtlCmd.sem, hheld.tx_eq, hheld.holder, if_true]
      have hworld : World digest backend v initial (s.commit tx) := by
        refine hI.world.commit hheld.table hheld.grows ?_
        intro row hrow happlied
        obtain ⟨applied, rfl, hrevision, hd⟩ := hshows row hrow happlied
        exact ⟨applied, hheld.stage.1, hrevision, hd⟩
      let c : Commit := ⟨tx.holder, tx.table, s.agents.shared.journal, s.db⟩
      refine ⟨.finished c, ?_, ?_⟩
      · rw [hsem]
        refine ⟨hworld, ?_⟩
        have hfree : ∀ j, Free (s.commit tx) j := by
          intro j tx' htx'
          cases htx'
        intro j
        by_cases hj : j = i
        · subst hj
          rw [Function.update_self]
          refine ⟨hfree j, ?_⟩
          simp [CtlSys.lastCommit, CtlSys.commit, hheld.holder, c]
        · rw [Function.update_of_ne hj]
          have hne : tx.holder ≠ j := by
            rw [hheld.holder]
            exact Ne.symm hj
          refine CtlPhase.fits_of_other (hI.fits j) hheld.tx_eq hne (hfree j) ?_
          simp [CtlSys.lastCommit, CtlSys.commit, hne]
      · intro u _
        refine ⟨c, rfl, hheld.db_eq, ?_⟩
        rintro applied rfl
        exact hheld.stage.1

/-- A result other than the missing server comes with a commit in sync. -/
def Ends (digest : DesiredState → String) (r : Except String Outcome) (m : CtlPhase) : Prop :=
  ∀ outcome, r = .ok outcome → outcome ≠ .noServer → ∃ c, m = .finished c ∧ InSync digest c

theorem ends_error (e : String) (m : CtlPhase) : Ends digest (.error e) m := by
  intro outcome h
  cases h

/-- The skipping of a row only depends on what is desired. -/
theorem skipping_update {s : CtlSys B Snapshot} {row row' : ReconcileRow} (htx : s.tx = some tx)
    (hrow : tx.table v = some row)
    (hsame : ∀ h n d, upToDate row' h n d = upToDate row h n d)
    (hskip : s.skipping digest = true) :
    CtlSys.skipping digest
      { s with tx := some { tx with table := Function.update tx.table v (some row') } } =
        true := by
  simp only [CtlSys.skipping, htx] at hskip ⊢
  split at hskip
  · rename_i revision d server peers hseen hdesired
    by_cases hv : server.id = v
    · rw [hv, hrow] at hskip
      rw [hv, Function.update_self]
      exact (hsame _ _ _).trans hskip
    · rw [Function.update_of_ne hv]
      exact hskip
  · cases hskip

theorem setApplied_runs {row : ReconcileRow} {revision : Nat} {d : String}
    {applied : AppliedState} (hrow : tx.table v = some row) :
    CtlRuns backend digest v initial i
      (fun r m => ∀ u, r = .ok u → ∃ tx, m = .holding db tx (.settled applied) ∧
        tx.table v = some (row.setApplied revision d))
      (execute (.updateRow v (.setApplied revision d)) id)
      (.holding db tx (.settled applied)) := by
  refine updateRow_runs hrow id (Nat.le_refl _) ?_
  intro s hheld
  refine ⟨hheld.stage.1, hheld.stage.2.imp ?_ ?_⟩
  · intro hskip
    exact skipping_update hheld.tx_eq hrow (fun _ _ _ => rfl) hskip
  · intro hbounded
    exact ⟨hbounded.requests, hbounded.journal⟩

/-- The commit of an applied row. -/
theorem commitApplied_runs {row : ReconcileRow} {applied : AppliedState} {server : Server}
    {outcome : Outcome} (hrow : tx.table v = some row)
    (hrevision : applied.state.revision = row.appliedRevision)
    (hd : applied.digest = row.appliedDigest)
    (hdesired : desired db = .ok (some (server, applied.state.peers))) :
    CtlRuns backend digest v initial i (Ends digest)
      (do
        execute .commit id
        pure outcome) (.holding db tx (.settled applied)) := by
  refine SafeThen.attempt_bind (commit_runs ?_) ?_ ?_
  · intro row' hrow' _
    rw [hrow] at hrow'
    cases hrow'
    exact ⟨applied, rfl, hrevision, hd⟩
  · intro _ m hcommit outcome' _ _
    obtain ⟨c, rfl, hdb, hjournal⟩ := hcommit () rfl
    exact ⟨c, rfl, applied, server, _, hjournal applied rfl, hdb ▸ hdesired, rfl⟩
  · intro e m _
    exact ends_error e m

theorem skip_runs {row : ReconcileRow} {applied : AppliedState} {server : Server}
    (hrow : tx.table v = some row)
    (hdesired : desired db = .ok (some (server, applied.state.peers))) :
    CtlRuns backend digest v initial i (Ends digest)
      (skip v row applied.state.revision applied.digest) (.holding db tx (.settled applied)) := by
  unfold skip
  split
  · refine SafeThen.attempt_bind (setApplied_runs hrow) ?_ ?_
    · intro _ m hset
      obtain ⟨tx', rfl, hrow'⟩ := hset () rfl
      exact commitApplied_runs hrow' rfl rfl hdesired
    · intro e m _
      exact ends_error e m
  · rename_i hsame
    simp only [not_or, not_not] at hsame
    exact commitApplied_runs hrow hsame.2.1.symm hsame.2.2.symm hdesired

/-- A finished request left its candidate in the journal, and nothing could
follow it. -/
theorem settled_of_response {s : CtlSys B Snapshot} (h : World digest backend v initial s)
    {r : Nat} {candidate : DesiredState} (hsent : Sent s r candidate)
    (hbounded : Bounded digest s candidate.revision)
    (hcontent : candidate.validateContent = .ok ()) (hpositive : 0 < candidate.revision)
    (hresponse : applyResponse s.agents r =
      some (.applied candidate.revision (digest candidate))) :
    s.agents.shared.journal.load digest = .ok (some (HostAgent.entryOf digest candidate)) := by
  obtain ⟨applied, hthread⟩ : ∃ applied,
      s.agents.threads[r]? = some (.applyState candidate, some (.ret (.ok applied))) := by
    unfold applyResponse at hresponse
    split at hresponse
    · rename_i t applied hthread
      have hrequest : s.agents.request r = some t := by
        rw [Pool.request, hthread]
        rfl
      cases hsent.symm.trans hrequest
      exact ⟨applied, hthread⟩
    · cases hresponse
    · cases hresponse
  have hfinished := ((journalOk_of_inv h.agents).finished r candidate applied hthread).2
  have hentry : (JournalFile.holds (HostAgent.entryOf digest candidate)).load digest =
      .ok (some (HostAgent.entryOf digest candidate)) :=
    (JournalFile.load_holds digest).mpr ⟨rfl, hpositive, hcontent, rfl⟩
  obtain ⟨current, hcurrent, rfl | hlater⟩ := h.released r _ _ hfinished hentry
  · exact hcurrent
  · have hle := hbounded.journal
    rw [journalRevision_of_load hcurrent] at hle
    have hlater' : candidate.revision < current.state.revision := hlater
    omega

/-- The response to an apply: once the agent reports the candidate, no request
is left that could write the journal. -/
theorem requestApply_runs {candidate : DesiredState} {n : Nat}
    (hn : candidate.revision = n) (hcomputed : ComputedFrom db candidate)
    (hcontent : candidate.validateContent = .ok ()) (hpositive : 0 < n) :
    CtlRuns backend digest v initial i
      (fun r m => ∃ stage, m = .holding db tx stage ∧
        ∀ response, r = .ok response → response = some (.applied n (digest candidate)) →
          stage = .settled (HostAgent.entryOf digest candidate))
      (requestApply candidate) (.holding db tx (.asked n)) := by
  subst hn
  have hsend : CtlRuns backend digest v initial i
      (fun r m => (r = .ok none ∧ m = .holding db tx (.asked candidate.revision)) ∨
        ∃ q, r = .ok (some q) ∧ m = .holding db tx (.sent q candidate))
      (Attempt.lift (.sendApply candidate) Except.ok)
      (.holding db tx (.asked candidate.revision)) := by
    refine call_runs ?_
    intro s μ ok hI hi
    have hheld := hI.holding hi
    obtain ⟨hbounded, hnext⟩ := hheld.stage
    cases ok with
    | false =>
        exact ⟨_, hI.stay hi, Or.inl ⟨rfl, rfl⟩⟩
    | true =>
        refine ⟨_, ?_, Or.inr ⟨_, rfl, rfl⟩⟩
        refine ⟨hI.world.send (hheld.db_eq.symm ▸ hcomputed) hbounded.requests hnext, ?_⟩
        intro j
        by_cases hj : j = i
        · subst hj
          rw [Function.update_self]
          refine ⟨hheld.db_eq, hheld.tx_eq, hheld.holder, hheld.table, hheld.grows,
            sent_send.mpr (Or.inl ⟨rfl, rfl⟩), ?_, hbounded.journal⟩
          intro r c hsent
          rcases sent_send.mp hsent with ⟨_, rfl⟩ | hold
          · exact Nat.le_refl _
          · exact hbounded.requests r c hold
        · rw [Function.update_of_ne hj]
          have hne : tx.holder ≠ j := by
            rw [hheld.holder]
            exact Ne.symm hj
          refine CtlPhase.fits_of_other (hI.fits j) hheld.tx_eq hne ?_ rfl
          intro tx' htx'
          have hsame : some tx = some tx' := hheld.tx_eq.symm.trans htx'
          cases hsame
          exact hne
  unfold requestApply
  refine SafeThen.attempt_bind hsend ?_ ?_
  · rintro sent m (⟨hr, rfl⟩ | ⟨q, hr, rfl⟩)
    · cases hr
      refine ⟨_, rfl, ?_⟩
      intro response hresponse happlied
      cases hresponse
      cases happlied
    · cases hr
      refine call_runs ?_
      intro s μ ok hI hi
      have hheld := hI.holding hi
      obtain ⟨hsent, hbounded⟩ := hheld.stage
      cases ok with
      | false =>
          refine ⟨_, hI.stay hi, _, rfl, ?_⟩
          intro response hresponse happlied
          cases hresponse
          cases happlied
      | true =>
          by_cases happlied : applyResponse s.agents q =
              some (.applied candidate.revision (digest candidate))
          · refine ⟨.holding db tx (.settled (HostAgent.entryOf digest candidate)), ?_, _, rfl,
              fun _ _ _ => rfl⟩
            have hload := settled_of_response hI.world hsent hbounded hcontent hpositive happlied
            refine ⟨hI.world, ?_⟩
            intro j
            by_cases hj : j = i
            · subst hj
              rw [Function.update_self]
              exact ⟨hheld.db_eq, hheld.tx_eq, hheld.holder, hheld.table, hheld.grows, hload,
                Or.inr hbounded⟩
            · rw [Function.update_of_ne hj]
              exact hI.fits j
          · refine ⟨_, hI.stay hi, _, rfl, ?_⟩
            intro response hresponse hsame
            cases hresponse
            exact absurd hsame happlied
  · rintro e m (⟨hr, _⟩ | ⟨q, hr, _⟩)
    · cases hr
    · cases hr

/-- The end of `reconcile` after an apply. -/
theorem recordOutcome_runs (candidate : DesiredState) {row : ReconcileRow} {server : Server}
    {response : Option Response} (hrow : tx.table v = some row)
    (hdesired : desired db = .ok (some (server, candidate.peers)))
    (hsettled : response = some (.applied candidate.revision (digest candidate)) →
      stage = .settled (HostAgent.entryOf digest candidate)) :
    CtlRuns backend digest v initial i (Ends digest)
      (recordOutcome v candidate.revision (digest candidate) response)
      (.holding db tx stage) := by
  unfold recordOutcome
  split
  · rename_i happlied
    rw [hsettled happlied]
    refine SafeThen.attempt_bind (setApplied_runs hrow) ?_ ?_
    · intro _ m hset
      obtain ⟨tx', rfl, hrow'⟩ := hset () rfl
      exact commitApplied_runs hrow' rfl rfl hdesired
    · intro e m _
      exact ends_error e m
  · have hfailed : CtlRuns backend digest v initial i
        (fun r m => ∀ u, r = .ok u → ∃ tx, m = .holding db tx .unsure ∧
          tx.table v = some (row.setFailed (failureReason response)))
        (execute (.updateRow v (.setFailed (failureReason response))) id)
        (.holding db tx stage) :=
      updateRow_runs hrow id (Nat.le_refl _) fun _ _ => trivial
    refine SafeThen.attempt_bind hfailed ?_ ?_
    · intro _ m hset
      obtain ⟨tx', rfl, hrow'⟩ := hset () rfl
      refine SafeThen.attempt_bind (commit_runs ?_) ?_ ?_
      · intro row' hrow'' happlied
        rw [hrow'] at hrow''
        cases hrow''
        cases happlied
      · intro _ m _
        exact ends_error _ m
      · intro e m _
        exact ends_error e m
    · intro e m _
      exact ends_error e m

theorem nextRevision_eq_ok {a b : Nat} {n : Int} (h : nextRevision a b = .ok n) :
    n.toNat = max a b + 1 := by
  unfold nextRevision at h
  split at h
  · split at h
    · cases h
      omega
    · cases h
  · cases h

theorem applyNext_runs {row : ReconcileRow} {server : Server} {peers : List DesiredPeer}
    {revision : Nat} (hrow : tx.table server.id = some row)
    (hdesired : desired db = .ok (some (server, peers))) (hv : server.id = v) :
    CtlRuns backend digest v initial i (Ends digest)
      (applyNext digest server row peers (digest ⟨0, server.publicKey, peers⟩) revision)
      (.holding db tx (.asked (max row.desiredRevision revision + 1))) := by
  subst hv
  unfold applyNext
  refine orReturn_runs ?_ fun e => ends_error e _
  intro next hnext
  have hn := nextRevision_eq_ok hnext
  rw [← hn]
  refine orReturn_runs ?_ fun e => ends_error e _
  intro d hvalid
  obtain ⟨hlt, hcontent, _⟩ := (DesiredState.validate_eq_ok digest).mp hvalid
  have hlt' : revision < next.toNat := hlt
  have hpending : CtlRuns backend digest server.id initial i
      (fun r m => ∀ u, r = .ok u → ∃ tx, m = .holding db tx (.asked next.toNat) ∧
        tx.table server.id = some (row.setPending next.toNat
          (digest ⟨0, server.publicKey, peers⟩) (digest ⟨next.toNat, server.publicKey, peers⟩)))
      (execute (.updateRow server.id (.setPending next.toNat
          (digest ⟨0, server.publicKey, peers⟩) (digest ⟨next.toNat, server.publicKey, peers⟩))) id)
      (.holding db tx (.asked next.toNat)) := by
    refine updateRow_runs hrow ?_ ?_ ?_
    · intro _
      exact Or.inr ⟨server.publicKey, peers, rfl, rfl⟩
    · show row.desiredRevision ≤ next.toNat
      omega
    · intro s hheld
      obtain ⟨hbounded, hnext⟩ := hheld.stage
      exact ⟨⟨hbounded.requests, hbounded.journal⟩, hnext⟩
  refine SafeThen.attempt_bind hpending ?_ ?_
  · intro _ m hset
    obtain ⟨tx', rfl, hrow'⟩ := hset () rfl
    have hcomputed : ComputedFrom db ⟨next.toNat, server.publicKey, peers⟩ :=
      ⟨server, hdesired, rfl⟩
    refine SafeThen.attempt_bind
      (requestApply_runs rfl hcomputed hcontent (Nat.zero_lt_of_lt hlt')) ?_ ?_
    · rintro response m ⟨stage, rfl, hsettled⟩
      exact recordOutcome_runs ⟨next.toNat, server.publicKey, peers⟩ hrow' hdesired
        (hsettled response rfl)
    · intro e m _
      exact ends_error e m
  · intro e m _
    exact ends_error e m

/-- `reconcile` for the one active server. -/
theorem reconcileServer_runs (hdigest : CollisionFree digest) {server : Server}
    (hserver : activeServer db = .ok (some server)) (hv : server.id = v) :
    CtlRuns backend digest v initial i (Ends digest) (reconcileServer digest server)
      (.holding db tx .fresh) := by
  subst hv
  unfold reconcileServer
  refine SafeThen.attempt_bind ensureRow_runs ?_ fun e m _ => ends_error e m
  intro _ m hensured
  obtain ⟨tx, row, rfl, hrow⟩ := hensured () rfl
  refine SafeThen.attempt_bind
    (Q := fun r m => m = .holding db tx .fresh ∧ ∀ row', r = .ok row' → row' = row)
    (read_runs ?_ ?_) ?_ fun e m _ => ends_error e m
  · intro ok s
    cases ok with
    | false =>
        rfl
    | true =>
        rfl
  · intro s μ ok hI hi
    refine ⟨rfl, ?_⟩
    intro row' hr
    cases ok with
    | false =>
        cases hr
    | true =>
        simp only [CtlCmd.sem, (hI.holding hi).tx_eq, Option.bind_some, hrow] at hr
        cases hr
        rfl
  rintro row' m ⟨rfl, hread⟩
  cases hread row' rfl
  refine SafeThen.attempt_bind
    (Q := fun r m => m = .holding db tx .fresh ∧
      ∀ peers, r = .ok peers → desired db = .ok (some (server, peers)))
    (read_runs ?_ ?_) ?_ fun e m _ => ends_error e m
  · intro ok s
    cases ok with
    | false =>
        rfl
    | true =>
        rfl
  · intro s μ ok hI hi
    refine ⟨rfl, ?_⟩
    intro peers hr
    cases ok with
    | false =>
        cases hr
    | true =>
        simp only [CtlCmd.sem, (hI.holding hi).db_eq, id] at hr
        simp only [desired, hserver, hr]
  rintro peers m ⟨rfl, hpeers⟩
  have hdesired := hpeers peers rfl
  refine SafeThen.attempt_bind (requestStatus_runs hdigest hrow hdesired rfl) ?_
    fun e m _ => ends_error e m
  rintro ⟨revision, d⟩ m hinformed
  obtain ⟨tx', hrow', ⟨hmatch, applied, rfl, rfl, rfl, rfl⟩ | ⟨hmatch, rfl⟩⟩ :=
    hinformed revision d rfl
  · dsimp only
    rw [if_pos hmatch]
    exact skip_runs hrow' hdesired
  · dsimp only
    rw [hmatch, if_neg Bool.false_ne_true]
    exact applyNext_runs hrow' hdesired rfl

theorem reconcileLocked_runs (hdigest : CollisionFree digest) :
    CtlRuns backend digest v initial i (Ends digest) (reconcileLocked digest)
      (.holding db tx .fresh) := by
  unfold reconcileLocked
  refine SafeThen.attempt_bind
    (Q := fun r m => m = .holding db tx .fresh ∧ ∀ server, r = .ok (some server) →
      activeServer db = .ok (some server) ∧ server.id = v)
    (read_runs ?_ ?_) ?_ fun e m _ => ends_error e m
  · intro ok s
    cases ok with
    | false =>
        rfl
    | true =>
        rfl
  · intro s μ ok hI hi
    refine ⟨rfl, ?_⟩
    intro server hr
    cases ok with
    | false =>
        cases hr
    | true =>
        have hserver : activeServer s.db = .ok (some server) := hr
        exact ⟨(hI.holding hi).db_eq ▸ hserver, hI.world.focused server hserver⟩
  rintro found m ⟨rfl, hfound⟩
  cases found with
  | none =>
      intro outcome hr hne
      cases hr
      exact absurd rfl hne
  | some server =>
      obtain ⟨hserver, hv⟩ := hfound server rfl
      exact reconcileServer_runs hdigest hserver hv

theorem reconcile_runs (hdigest : CollisionFree digest) :
    CtlRuns backend digest v initial i (Ends digest) (reconcile digest) .outside := by
  unfold reconcile
  refine SafeThen.attempt_bind begin_runs ?_ fun e m _ => ends_error e m
  intro _ m hbegun
  obtain ⟨db, tx, rfl⟩ := hbegun () rfl
  refine SafeThen.attempt_bind
    (SafeThen.outcome (SafeThen.mono (reconcileLocked_runs hdigest) ?_))
    (Q := fun r m => ∃ r', r = .ok r' ∧ Ends digest r' m) ?_ ?_
  · intro r m hr
    exact ⟨r, rfl, hr⟩
  · rintro r m ⟨r', hr', hends⟩
    cases hr'
    refine SafeThen.attempt_bind rollback_runs ?_ ?_
    · rintro _ m' ⟨_, rfl⟩ outcome hr hne
      obtain ⟨c, rfl, hsync⟩ := hends outcome hr hne
      exact ⟨c, rfl, hsync⟩
    · rintro e m' ⟨he, _⟩
      cases he
  · rintro e m ⟨r', hr', _⟩
    cases hr'

end Programs

section Main

variable {B Snapshot : Type} (backend : HostBackend B Snapshot)
variable (digest : DesiredState → String) (v : Uuid) (initial : JournalFile)

/-- The invariant of the system. -/
abbrev CtlPoolInv (p : CtlPool B Snapshot) : Prop :=
  PoolInv (ctlSystem backend digest) (CtlInv digest backend v initial) (fun _ _ _ => True)
    (fun _ _ _ => True) (fun _ _ r m => Ends digest r m) .outside p

variable {backend digest v initial}

theorem ctlPoolInv_step (hdigest : CollisionFree digest) (p : CtlPool B Snapshot) (e : CtlEvent)
    (h : CtlPoolInv backend digest v initial p) (he : CtlMeets digest v p e) :
    CtlPoolInv backend digest v initial (ctlStep backend digest p e) := by
  cases e with
  | api e =>
      have hmeets : EventMeets (fun _ _ _ => True) (fun _ => True) (fun _ _ => True) p e := by
        cases e with
        | spawn t =>
            trivial
        | step i ok =>
            intro _ _ _
            trivial
        | crash i =>
            trivial
        | restart g =>
            trivial
      refine poolInv_step ?_ ?_ ?_ p e h hmeets
      · intro _ _ i
        exact reconcile_runs hdigest
      · intro i s μ hs
        exact hs.rollback (Or.inl rfl)
      · intro _ s μ _ hs
        exact hs.restart
  | write change =>
      exact poolInv_env h fun μ hs => hs.write he
  | agent e =>
      exact poolInv_env h fun μ hs => hs.agentStep he

theorem ctlPoolInv_idle {db : Db} (hdb : FocusedOn v db) (host : B) :
    CtlPoolInv backend digest v initial
      (ctlIdle digest db initial host : CtlPool B Snapshot) := by
  have hnone : ∀ r c, ¬Sent (ctlIdle digest db initial host : CtlPool B Snapshot).shared r c := by
    intro r c hsent
    simp [Sent, ctlIdle, agentIdle, Pool.request] at hsent
  refine poolInv_init ⟨?_, ?_⟩
  · constructor
    case agents =>
      exact agentInv_idle initial host
    case released =>
      intro r file applied hr
      cases hr
    case focused =>
      exact hdb
    case snapshot =>
      rfl
    case requests =>
      exact ⟨fun r c h => absurd h (hnone r c), fun r c h => absurd h (hnone r c),
        fun r c h => absurd h (hnone r c), fun r r' c c' h => absurd h (hnone r c)⟩
    case history =>
      cases hload : initial.load digest with
      | error e =>
          constructor <;> simp [agentIdle, hload]
      | ok previous =>
          cases previous with
          | none =>
              constructor <;> simp [agentIdle, hload]
          | some applied =>
              refine ⟨List.IsChain.singleton _, by simp [hload], by simp,
                by simp [agentIdle, hload], ?_⟩
              intro applied' version rest hhistory
              cases hhistory
              exact ⟨hload, fun r c _ hlt => absurd hlt (Nat.not_lt_zero _)⟩
    case table =>
      constructor
      · intro id row hrow
        cases hrow
      · intro row hrow
        cases hrow
    case commits =>
      constructor
      · intro c hc
        cases hc
      · intro id row hrow
        cases hrow
  · intro j tx htx
    cases htx

theorem reconcileSafe_of_inv {p : CtlPool B Snapshot} (h : CtlPoolInv backend digest v initial p) :
    ReconcileSafe digest initial p := by
  obtain ⟨μ, hI, hpost⟩ := post_of_poolInv h
  refine ⟨hI.world.history.advances, hI.world.history.current, hI.world.history.computed, ?_,
    hI.world.commits.recorded, hI.world.commits.committed⟩
  intro i outcome hi hne
  obtain ⟨c, hphase, hsync⟩ := hpost i () (.ok outcome) hi outcome rfl hne
  have hfits := hI.fits i
  rw [hphase] at hfits
  exact ⟨c, hfits.2, hsync⟩

/--
In every run of API processes, writers and the agent in which the writers leave
the server in place and the agent does not write the journal while a
`reconcile` skips, reconciliation keeps its promises in every state.
-/
theorem reconcile_safe (backend : HostBackend B Snapshot) (digest : DesiredState → String)
    (hdigest : CollisionFree digest) (v : Uuid) (db : Db) (hdb : FocusedOn v db)
    (journal : JournalFile) (host : B) (es : List CtlEvent)
    (hes : Along (ctlStep backend digest) (CtlMeets digest v) (ctlIdle digest db journal host) es) :
    Always (ctlStep backend digest) (ReconcileSafe digest journal)
      (ctlIdle digest db journal host) es :=
  always_of_along (CtlPoolInv backend digest v journal)
    (ctlPoolInv_step hdigest) (fun _ hp => reconcileSafe_of_inv hp)
    (ctlPoolInv_idle hdb host) hes

end Main

section Sample

/-- The parts of a peer, one after the other. -/
def peerCode (p : DesiredPeer) : List Char :=
  textCode p.publicKey ++ (natCode p.vpnIp.toNat ++ (unaryCode p.enabled.toNat ++
    (optionCode textCode p.presharedKey ++ natCode p.persistentKeepalive)))

theorem peerCode_prefixFree : PrefixFree peerCode := by
  have hparts := textCode_prefixFree.pair (natCode_prefixFree.pair (unaryCode_prefixFree.pair
    ((optionCode_prefixFree textCode_prefixFree).pair natCode_prefixFree)))
  refine hparts.comap (g := fun p : DesiredPeer => (p.publicKey, p.vpnIp.toNat, p.enabled.toNat,
    p.presharedKey, p.persistentKeepalive)) ?_
  rintro ⟨key, ip, enabled, psk, keepalive⟩ ⟨key', ip', enabled', psk', keepalive'⟩ h
  simp only [Prod.mk.injEq, BitVec.toNat_inj] at h
  obtain ⟨rfl, rfl, henabled, rfl, rfl⟩ := h
  cases enabled <;> cases enabled' <;> simp_all

def stateCode (s : DesiredState) : List Char :=
  natCode s.revision ++ (textCode s.serverPublicKey ++ listCode peerCode s.peers)

theorem stateCode_prefixFree : PrefixFree stateCode := by
  have hparts := natCode_prefixFree.pair (textCode_prefixFree.pair
    (listCode_prefixFree peerCode_prefixFree))
  refine hparts.comap (g := fun s : DesiredState => (s.revision, s.serverPublicKey, s.peers)) ?_
  rintro ⟨revision, key, peers⟩ ⟨revision', key', peers'⟩ h
  simp only [Prod.mk.injEq] at h
  obtain ⟨rfl, rfl, rfl⟩ := h
  rfl

/-- A digest without collisions. -/
def codeDigest (s : DesiredState) : String := String.ofList ('#' :: stateCode s)

theorem codeDigest_collisionFree : CollisionFree codeDigest where
  injective := by
    intro s t h
    have hcode : '#' :: stateCode s = '#' :: stateCode t := String.ofList_inj.mp h
    exact stateCode_prefixFree.injective (List.cons.inj hcode).2
  nonempty := by
    intro s h
    have hcode : '#' :: stateCode s = [] := String.ofList_inj.mp h
    cases hcode

instance decidableFocusedOn (v : Uuid) (db : Db) : Decidable (FocusedOn v db) :=
  match h : activeServer db with
  | .ok (some server) => decidable_of_iff (server.id = v) (by
      constructor
      · intro hv server' hserver'
        cases h.symm.trans hserver'
        exact hv
      · intro hfocused
        exact hfocused server h)
  | .ok none => .isTrue (by
      intro server hserver
      cases h.symm.trans hserver)
  | .error e => .isTrue (by
      intro server hserver
      cases h.symm.trans hserver)

instance decidableCtlMeets {B Snapshot : Type} (digest : DesiredState → String) (v : Uuid)
    (p : CtlPool B Snapshot) : (e : CtlEvent) → Decidable (CtlMeets digest v p e)
  | .api _ => .isTrue trivial
  | .write change => inferInstanceAs (Decidable (FocusedOn v (change p.shared.db)))
  | .agent e => decidable_of_iff (p.shared.skipping digest = true →
      (writtenBy p.shared.agents e).isNone = true) (by
        rw [Option.isNone_iff_eq_none]
        exact Iff.rfl)

/-- The result of a process. -/
def outcomeOf {B Snapshot : Type} (p : CtlPool B Snapshot) (i : Nat) :
    Option (Except String Outcome) :=
  match p.threads[i]? with
  | some (_, some (.ret r)) => some r
  | _ => none

theorem thread_of_outcome {B Snapshot : Type} {p : CtlPool B Snapshot} {i : Nat}
    {r : Except String Outcome} (h : outcomeOf p i = some r) :
    p.threads[i]? = some ((), some (.ret r)) := by
  unfold outcomeOf at h
  split at h
  · rename_i r' hi
    cases h
    exact hi
  · cases h

/-- A `reconcile` applies the state of the database. -/
def sampleApply (i r : Nat) : List CtlEvent :=
  CtlEvent.api (PoolEvent.spawn ()) ::
    (List.replicate 8 (CtlEvent.api (PoolEvent.step i true)) ++
      (List.replicate 20 (CtlEvent.agent (AgentEvent.step r true)) ++
        List.replicate 4 (CtlEvent.api (PoolEvent.step i true))))

/-- The system on a host without a journal. -/
def sampleSystem : CtlPool MockHost (Option DesiredState) :=
  ctlIdle codeDigest sampleActiveOwner .missing ⟨none, none⟩

/-- The suspension of the owner after a `reconcile`. -/
def sampleReconcile : List CtlEvent :=
  sampleApply 0 0 ++ [CtlEvent.write fun _ => sampleSuspendedOwner]

theorem reconcile_safe_sample :
    ReconcileSafe codeDigest .missing
      (runEvents (ctlStep mockBackend codeDigest) sampleSystem sampleReconcile) :=
  (reconcile_safe mockBackend codeDigest codeDigest_collisionFree 10 sampleActiveOwner
    (by decide +kernel) .missing ⟨none, none⟩ sampleReconcile (by decide +kernel)).last

/--
The first `reconcile` applies revision 1.  The owner is suspended, the second
`reconcile` sends revision 2 and dies.  The owner is active again, and the
third `reconcile` finds revision 1 in the journal and skips.  Before it commits,
the agent finishes revision 2.
-/
def sampleLateApply : List CtlEvent :=
  sampleApply 0 0 ++
    CtlEvent.write (fun _ => sampleSuspendedOwner) :: CtlEvent.api (PoolEvent.spawn ()) ::
      (List.replicate 8 (CtlEvent.api (PoolEvent.step 1 true)) ++
        CtlEvent.api (PoolEvent.crash 1) :: CtlEvent.write (fun _ => sampleActiveOwner) ::
          CtlEvent.api (PoolEvent.spawn ()) ::
            (List.replicate 6 (CtlEvent.api (PoolEvent.step 2 true)) ++
              (List.replicate 20 (CtlEvent.agent (AgentEvent.step 1 true)) ++
                List.replicate 2 (CtlEvent.api (PoolEvent.step 2 true)))))

/-- The numbers of peers in the journal and of desired peers at a commit. -/
def peerCounts (c : Commit) : Option (Nat × Nat) :=
  match c.journal.load codeDigest, desired c.db with
  | .ok (some applied), .ok (some (_, peers)) => some (applied.state.peers.length, peers.length)
  | _, _ => none

theorem peerCounts_of_inSync {c : Commit} (h : InSync codeDigest c) :
    ∃ n, peerCounts c = some (n, n) := by
  obtain ⟨applied, server, peers, hload, hdesired, rfl⟩ := h
  exact ⟨applied.state.peers.length, by simp only [peerCounts, hload, hdesired]⟩

/-- The third `reconcile` returns `Ok` while the journal has no peers. -/
theorem late_apply_meets_skip :
    CollisionFree codeDigest ∧ FocusedOn 10 sampleActiveOwner ∧
      FocusedOn 10 sampleSuspendedOwner ∧
      ¬ReconcileSafe codeDigest .missing
        (runEvents (ctlStep mockBackend codeDigest) sampleSystem sampleLateApply) := by
  refine ⟨codeDigest_collisionFree, by decide, by decide, ?_⟩
  intro hsafe
  generalize hp : runEvents (ctlStep mockBackend codeDigest) sampleSystem sampleLateApply = p
    at hsafe
  have hreport : (outcomeOf p 2, (p.shared.lastCommit 2).bind peerCounts) =
      (some (.ok .skipped), some (0, 1)) := by
    rw [← hp]
    decide +kernel
  obtain ⟨houtcome, hcounts⟩ := Prod.mk.injEq .. ▸ hreport
  obtain ⟨c, hc, hsync⟩ := hsafe.returned 2 .skipped (thread_of_outcome houtcome) (by decide)
  obtain ⟨n, hn⟩ := peerCounts_of_inSync hsync
  rw [hc, Option.bind_some, hn] at hcounts
  simp at hcounts
  omega

end Sample

end HostAgentController
end Api
end ZeroVpn
