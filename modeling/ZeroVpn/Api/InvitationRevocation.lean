import ZeroVpn.Api.InvitationActivation
import ZeroVpn.Library.Notes

/-!
# A revoked invitation

`revoke` marks the pending row of an account.  `create_link` writes a new link
only into a row that is pending, `verify` and the acceptance look for such a
row too; `resend` looks for it and then writes the row whatever it has become.
So the mark of a revocation survives as long as no `resend` writes a row that
was revoked after it looked.

`create_user` writes a revoked row too, to invite the account again on purpose;
the condition leaves such a run out as well.
-/

namespace ZeroVpn

open Library

namespace Api
namespace Invitations

open Db (Uuid)

/-- A transaction of `google_callback` activates the account. -/
def ActivatedByCallback (k : Tokens) (id : Uuid) (p : InvitePool) (e : PoolEvent InviteOp Unit) :
    Prop :=
  Activates p.shared (poolStep (inviteSystem k) p e).shared id ∧
    ∃ i op googleId now, e = .step i true ∧ nextCall p i = some (op, .accept id googleId now)

/-- The call writes an invitation over one that is revoked. -/
def InviteCmd.overwritesRevoked (c : InviteCmd) (s : Registry) : Bool :=
  match c with
  | .upsert id .. => s.invitations.any fun r => r.userId == id && r.revokedAt.isSome
  | _ => false

/-- The condition on one event: an invitation that is sent again has not been revoked. -/
def SentWhilePending (p : InvitePool) : PoolEvent InviteOp Unit → Prop
  | .step i ok =>
      ok = true → ((nextCall p i).any fun x => x.2.overwritesRevoked p.shared) = false
  | _ => True

instance (p : InvitePool) : (e : PoolEvent InviteOp Unit) → Decidable (SentWhilePending p e)
  | .step i ok => inferInstanceAs (Decidable
      (ok = true → ((nextCall p i).any fun x => x.2.overwritesRevoked p.shared) = false))
  | .spawn _ | .crash _ | .restart _ => .isTrue trivial

/-- The invitation of the account is revoked, and none is pending. -/
structure Closed (id : Uuid) (rows : List Invitation) : Prop where
  revoked : ∃ r ∈ rows, r.userId = id ∧ r.revokedAt.isSome = true
  settled : ∀ r ∈ rows, r.userId = id → r.pending = false

section Rows

variable {id : Uuid} {rows rows' : List Invitation}

/-- The rows of other accounts do not matter. -/
theorem Closed.congr (h : Closed id rows) (hsame : ∀ r, r.userId = id → (r ∈ rows' ↔ r ∈ rows)) :
    Closed id rows' where
  revoked := by
    obtain ⟨r, hr, hid, hrevoked⟩ := h.revoked
    exact ⟨r, (hsame r hid).mpr hr, hid, hrevoked⟩
  settled := by
    intro r hr hid
    exact h.settled r ((hsame r hid).mp hr) hid

/-- An update that takes no mark away. -/
theorem Closed.update (h : Closed id rows) {p : Invitation → Bool} {f : Invitation → Invitation}
    (hid : ∀ r, (f r).userId = r.userId)
    (hrevoked : ∀ r, r.revokedAt.isSome = true → (f r).revokedAt.isSome = true)
    (hpending : ∀ r, r.pending = false → (f r).pending = false) :
    Closed id (updateWhere p f rows) where
  revoked := by
    obtain ⟨r, hr, hrid, hmark⟩ := h.revoked
    cases hp : p r with
    | true =>
        exact ⟨f r, mem_updateWhere_of_pos hr hp, (hid r).trans hrid, hrevoked r hmark⟩
    | false =>
        exact ⟨r, mem_updateWhere_of_not hr hp, hrid, hmark⟩
  settled := by
    intro r' hr' hrid
    obtain ⟨r, hr, rfl⟩ := mem_updateWhere.mp hr'
    cases hp : p r with
    | true =>
        simp only [hp, if_true, hid] at hrid ⊢
        exact hpending r (h.settled r hr hrid)
    | false =>
        simp only [hp] at hrid ⊢
        exact h.settled r hr hrid

/-- Another account's row is written. -/
theorem Closed.updateOther (h : Closed id rows) {p : Invitation → Bool} {new : Invitation}
    (hp : ∀ r, p r = true → r.userId = new.userId) (hne : new.userId ≠ id) :
    Closed id (updateWhere p (fun _ => new) rows) := by
  refine h.congr fun r hrid => ?_
  rw [mem_updateWhere]
  constructor
  · rintro ⟨r₀, hr₀, rfl⟩
    split at hrid
    · exact absurd hrid hne
    · rename_i hnot
      rw [if_neg hnot]
      exact hr₀
  · intro hr
    refine ⟨r, hr, ?_⟩
    have hnot : ¬ p r = true := by
      intro hpr
      exact hne ((hp r hpr).symm.trans hrid)
    rw [if_neg hnot]

theorem pending_revoked (r : Invitation) (at_ : Int) :
    Invitation.pending { r with revokedAt := some at_ } = false := by
  simp [Invitation.pending]

theorem pending_accepted (r : Invitation) (at_ : Int) :
    Invitation.pending { r with acceptedAt := some at_ } = false := by
  simp [Invitation.pending]

/-- `revoke` closes the invitation that it finds. -/
theorem closed_revoke {s : Registry} {now : Int} {n : Nat} (hn : n ≠ 0)
    (h : (s.revoke id now).2 = .ok n) : Closed id (s.revoke id now).1.invitations := by
  unfold Registry.revoke at h ⊢
  dsimp only at h ⊢
  split at h
  · cases h
    exact absurd rfl hn
  rename_i haffected
  rw [if_neg haffected]
  obtain ⟨r, hr⟩ := List.exists_mem_of_length_pos (Nat.pos_of_ne_zero haffected)
  obtain ⟨hmem, hopen⟩ := List.mem_filter.mp hr
  refine ⟨⟨_, mem_updateWhere_of_pos hmem hopen, ?_, rfl⟩, ?_⟩
  · exact eq_of_beq (Bool.and_eq_true_iff.mp hopen).1
  · intro r' hr' hrid
    obtain ⟨r₀, hr₀, rfl⟩ := mem_updateWhere.mp hr'
    split
    · exact pending_revoked r₀ now
    · rename_i hnot
      rw [if_neg hnot] at hrid
      simpa [hrid] using hnot

end Rows

/-- A closed invitation stays closed unless it is written over. -/
theorem closed_exec {k : Tokens} {s : Registry} {id : Uuid} {c : InviteCmd}
    (hc : c.overwritesRevoked s = false) (h : Closed id s.invitations) :
    Closed id (c.exec k s).1.invitations := by
  cases c with
  | upsert userId token expiresAt =>
      simp only [InviteCmd.exec, Registry.upsert]
      split
      · exact h
      have hne : userId ≠ id := by
        rintro rfl
        obtain ⟨r, hr, hrid, hmark⟩ := h.revoked
        simp only [InviteCmd.overwritesRevoked, List.any_eq_false] at hc
        exact hc r hr (by simp [hrid, hmark])
      dsimp only [upsertRow]
      split
      · exact h.updateOther (fun r hr => eq_of_beq hr) hne
      · refine h.congr fun r hrid => ?_
        rw [List.mem_append, List.mem_singleton]
        constructor
        · rintro (hr | rfl)
          · exact hr
          · exact absurd hrid hne
        · exact Or.inl
  | replaceLink userId token expiresAt =>
      simp only [InviteCmd.exec, Registry.replaceLink]
      split
      · exact h
      split
      · exact h
      rename_i haffected
      have hne : userId ≠ id := by
        rintro rfl
        obtain ⟨r, hr⟩ := List.exists_mem_of_length_pos (Nat.pos_of_ne_zero haffected)
        obtain ⟨hmem, hopen⟩ := List.mem_filter.mp hr
        obtain ⟨hrid, hpending⟩ := Bool.and_eq_true_iff.mp hopen
        rw [h.settled r hmem (eq_of_beq hrid)] at hpending
        cases hpending
      exact h.updateOther (fun r hr => eq_of_beq (Bool.and_eq_true_iff.mp hr).1) hne
  | verify token now =>
      exact h.update (f := fun r => { r with verifiedAt := some (r.verifiedAt.getD now) })
        (fun _ => rfl) (fun _ hr => hr) fun _ hr => hr
  | revoke userId now =>
      simp only [InviteCmd.exec, Registry.revoke]
      split
      · exact h
      · exact h.update (f := fun r => { r with revokedAt := some now }) (fun _ => rfl)
          (fun _ _ => rfl) fun r _ => pending_revoked r now
  | accept userId googleId now =>
      simp only [InviteCmd.exec, Registry.accept]
      split
      · exact h
      split
      · exact h
      split
      · exact h
      · exact h.update (f := fun r => { r with acceptedAt := some now }) (fun _ => rfl)
          (fun _ hr => hr) fun r _ => pending_accepted r now
  | createUser userId email role =>
      simp only [InviteCmd.exec, Registry.createUser]
      split <;> exact h
  | linkGoogle userId googleId =>
      simp only [InviteCmd.exec, Registry.linkGoogle]
      split <;> exact h
  | _ =>
      exact h

/-- The requests that have revoked an invitation remember the account. -/
def Marked (s : Registry) (μ : Nat → Option Uuid) : Prop :=
  ∀ i id, μ i = some id → Closed id s.invitations

/-- The condition of a call. -/
def SentPending (_ : Nat) (_ : InviteOp) (c : InviteCmd) (ok : Bool) (s : Registry)
    (_ : Nat → Option Uuid) : Prop :=
  ok = true → c.overwritesRevoked s = false

/-- A request that has revoked an invitation ends with its note. -/
def RevokedNote (op : InviteOp) (r : Except InvitationError Unit) (m : Option Uuid) : Prop :=
  ∀ adminId id now, op = .revoke adminId id now → r = .ok () → m = some id

section Requests

variable {k : Tokens} {i : Nat} {op : InviteOp}

theorem marked_sem {s : Registry} {μ : Nat → Option Uuid} (h : Marked s μ) {c : InviteCmd}
    {ok : Bool} (hc : ok = true → c.overwritesRevoked s = false) :
    Marked (c.sem k ok s).1 μ := by
  intro j id hj
  cases ok with
  | false =>
      exact h j id hj
  | true =>
      exact closed_exec (hc rfl) (h j id hj)

theorem marked_update {s : Registry} {μ : Nat → Option Uuid} (h : Marked s μ) {m : Option Uuid}
    (hm : ∀ id, m = some id → Closed id s.invitations) : Marked s (Function.update μ i m) := by
  intro j id hj
  by_cases hji : j = i
  · rw [hji, Function.update_self] at hj
    exact hm id hj
  · rw [Function.update_of_ne hji] at hj
    exact h j id hj

/-- A program keeps the note it has. -/
theorem follows_same {α : Type} (p : InviteHandler α) {m : Option Uuid} :
    Follows (inviteSystem k) Marked (fun _ _ _ => True) SentPending i op (fun _ m' => m' = m)
      p.run m :=
  follows_of_calls (P := fun _ => True) (fun _ _ => trivial)
    (fun _ _ _ _ _ hI hcond => marked_sem hI hcond) (Program.calls_true _) fun _ => rfl

theorem revoke_follows (adminId id : Uuid) (now : Int) :
    Follows (inviteSystem k) Marked (fun _ _ _ => True) SentPending i op
      (fun r m => r = .ok () → m = some id) (revoke adminId id now).run none := by
  have hrevoke : Follows (inviteSystem k) Marked (fun _ _ _ => True) SentPending i op
      (fun r m => ∀ n : Nat, r = .ok n → n ≠ 0 → m = some id) (query (.revoke id now)).run
      none := by
    refine ⟨trivial, ?_⟩
    intro s μ ok hI _ hcond
    have hmarked : Marked (InviteCmd.sem k (.revoke id now) ok s).1 μ := marked_sem hI hcond
    cases ok with
    | false =>
        refine ⟨none, marked_update hmarked (fun _ h => by cases h), ?_⟩
        intro n hn
        cases hn
    | true =>
        by_cases hclosed : Closed id (s.revoke id now).1.invitations
        · refine ⟨some id, marked_update hmarked ?_, fun _ _ _ => rfl⟩
          rintro _ ⟨⟩
          exact hclosed
        · refine ⟨none, marked_update hmarked (fun _ h => by cases h), ?_⟩
          intro n hn hne
          refine absurd (closed_revoke (n := n) hne ?_) hclosed
          cases hanswer : (s.revoke id now).2 with
          | error e =>
              simp only [inviteSystem, InviteCmd.sem, InviteCmd.exec, hanswer] at hn
              cases hn
          | ok n' =>
              simp only [inviteSystem, InviteCmd.sem, InviteCmd.exec, hanswer] at hn
              cases hn
              rfl
  unfold revoke
  refine (follows_same _).attempt_bind ?_ fun _ _ _ h => by cases h
  rintro _ _ rfl
  refine hrevoke.attempt_bind ?_ fun _ _ _ h => by cases h
  intro (n : Nat) m hm
  by_cases hone : n = 1
  · have hnote : m = some id := hm n rfl (by omega)
    rw [hnote]
    exact (follows_same _).mono fun _ _ h _ => h
  · have hfail : (n != 1) = true := bne_iff_ne.mpr hone
    rw [hfail]
    intro h
    cases h

theorem handler_follows (op : InviteOp) :
    Follows (inviteSystem k) Marked (fun _ _ _ => True) SentPending i op (RevokedNote op)
      op.handler.run none := by
  cases op with
  | revoke adminId id now =>
      refine (revoke_follows adminId id now).mono ?_
      rintro r m h _ _ _ ⟨⟩ hr
      exact h hr
  | _ =>
      refine (follows_same _).mono ?_
      intro r m _ _ _ _ hop
      cases hop

end Requests

section Runs

variable {k : Tokens} {p : InvitePool} {e : PoolEvent InviteOp Unit} {id : Uuid}

/-- The notes of the requests. -/
abbrev RevocationNoted (k : Tokens) (p : InvitePool) (μ : Nat → Option Uuid) : Prop :=
  Noted (inviteSystem k) Marked (fun _ _ _ => True) SentPending RevokedNote none p μ

theorem overwrites_of_sent {i : Nat} {ok : Bool} {op : InviteOp} {c : InviteCmd}
    (he : SentWhilePending p (.step i ok)) (hnext : nextCall p i = some (op, c)) (hok : ok = true) :
    c.overwritesRevoked p.shared = false := by
  have hcond := he hok
  rw [hnext] at hcond
  exact hcond

theorem revocationNoted_step {μ : Nat → Option Uuid} (h : RevocationNoted k p μ)
    (he : SentWhilePending p e) : ∃ μ', RevocationNoted k (poolStep (inviteSystem k) p e) μ' := by
  refine noted_step (fun i op _ => handler_follows op) h ?_ ?_ ?_
  · rintro i ok op c rfl hnext
    exact overwrites_of_sent he hnext
  · intro i op q _ _
    exact marked_update h.inv fun _ hm => by cases hm
  · intro _ _ i id hi
    cases hi

/-- A closed invitation stays closed. -/
theorem closed_step (h : Closed id p.shared.invitations) (he : SentWhilePending p e) :
    Closed id (poolStep (inviteSystem k) p e).shared.invitations := by
  cases e with
  | spawn op =>
      exact h
  | restart g =>
      exact h
  | crash i =>
      simp only [poolStep]
      split <;> exact h
  | step i ok =>
      simp only [poolStep]
      split
      · rename_i op c q hi
        have hnext : nextCall p i = some (op, c) := by
          simp [nextCall, hi]
        cases ok with
        | false =>
            exact h
        | true =>
            exact closed_exec (overwrites_of_sent he hnext rfl) h
      · exact h

/-- A closed invitation activates nobody. -/
theorem not_activated_of_closed (h : Closed id p.shared.invitations) :
    ¬ ActivatedByCallback k id p e := by
  rintro ⟨hact, i, op, googleId, now, rfl, hnext⟩
  obtain ⟨q, hq⟩ := nextCall_eq_some hnext
  have hexec : Activates p.shared (InviteCmd.exec k (.accept id googleId now) p.shared).1 id := by
    simp only [poolStep, hq] at hact
    exact hact
  rcases activates_exec hexec with ⟨_, now', hcall, haffected⟩ | hcall
  · obtain ⟨r, hr⟩ := List.exists_mem_of_length_pos (Nat.pos_of_ne_zero haffected)
    obtain ⟨hmem, hconsumable⟩ := List.mem_filter.mp hr
    simp only [Registry.consumable, Bool.and_eq_true, beq_iff_eq] at hconsumable
    have hsettled := h.settled r hmem hconsumable.1.1.1
    rw [hconsumable.2] at hsettled
    cases hsettled
  · cases hcall

end Runs

/--
After a `revoke` has returned `Ok`, no `google_callback` activates the account, in every run
in which no invitation is sent again over a revoked one.
-/
theorem revoked_stays_revoked (k : Tokens) (s : Registry) (es es' : List (PoolEvent InviteOp Unit))
    (hrun : Along (poolStep (inviteSystem k)) SentWhilePending (inviteIdle s) (es ++ es'))
    (j : Nat) (adminId id : Uuid) (now : Int)
    (hrevoked : (runEvents (poolStep (inviteSystem k)) (inviteIdle s) es).threads[j]? =
      some (.revoke adminId id now, some (.ret (.ok ())))) :
    Along (poolStep (inviteSystem k)) (fun p e => ¬ ActivatedByCallback k id p e)
      (runEvents (poolStep (inviteSystem k)) (inviteIdle s) es) es' := by
  obtain ⟨hbefore, hafter⟩ := along_append.mp hrun
  have hnoted : ∃ μ, RevocationNoted k
      (runEvents (poolStep (inviteSystem k)) (inviteIdle s) es) μ := by
    refine (always_of_along (P := fun p => ∃ μ, RevocationNoted k p μ)
      (fun p => ∃ μ, RevocationNoted k p μ) ?_ (fun _ hp => hp) ?_ hbefore).last
    · rintro p e ⟨μ, hp⟩ he
      exact revocationNoted_step hp he
    · refine ⟨_, noted_init ?_⟩
      intro i id hi
      cases hi
  obtain ⟨μ, hμ⟩ := hnoted
  have hclosed : Closed id
      (runEvents (poolStep (inviteSystem k)) (inviteIdle s) es).shared.invitations := by
    have hpost : RevokedNote (.revoke adminId id now) (.ok ()) (μ j) := hμ.threads j _ _ hrevoked
    exact hμ.inv j id (hpost adminId id now rfl rfl)
  exact along_of_inv (fun p => Closed id p.shared.invitations) (fun p e hp he => closed_step hp he)
    (fun p e hp _ => not_activated_of_closed hp) hclosed hafter

/-- An admin, and an account with a pending invitation. -/
def sampleRegistry : Registry where
  users := [sampleAdmin, ⟨7, "new@example.org", none, .user, .pendingVerification, false, 0⟩]
  invitations := [⟨7, "old", 1000000, none, none, none⟩]
  drawn := 0
  history := []

/-- The invitation is sent again and then revoked. -/
def sampleRevocation : List (PoolEvent InviteOp Unit) :=
  PoolEvent.spawn (InviteOp.resend 1 7 0) :: List.replicate 8 (PoolEvent.step 0 true) ++
    PoolEvent.spawn (InviteOp.revoke 1 7 5) :: List.replicate 3 (PoolEvent.step 1 true)

/-- The link is presented, and its owner signs in with Google. -/
def sampleRedemption (verify callback : Nat) : List (PoolEvent InviteOp Unit) :=
  PoolEvent.spawn (InviteOp.verify (sampleTokens.fresh 0) 6) :: PoolEvent.step verify true ::
    PoolEvent.spawn (InviteOp.googleCallback ⟨"g7", "new@example.org", true⟩ 9) ::
      List.replicate 3 (PoolEvent.step callback true)

theorem revoked_stays_revoked_sample :
    Along (poolStep (inviteSystem sampleTokens))
      (fun p e => ¬ ActivatedByCallback sampleTokens 7 p e)
      (runEvents (poolStep (inviteSystem sampleTokens)) (inviteIdle sampleRegistry)
        sampleRevocation) (sampleRedemption 2 3 ++ [PoolEvent.step 3 true]) :=
  revoked_stays_revoked sampleTokens sampleRegistry sampleRevocation
    (sampleRedemption 2 3 ++ [PoolEvent.step 3 true]) (by decide) 1 1 7 5 (by rfl)

/-- A `resend` that has found the pending row writes it after a `revoke` has returned; the new
link activates the account, though no request that issues a link began after the `revoke`. -/
theorem resend_undoes_revoke :
    let p := runEvents (poolStep (inviteSystem sampleTokens)) (inviteIdle sampleRegistry)
      (PoolEvent.spawn (InviteOp.resend 1 7 0) :: List.replicate 3 (PoolEvent.step 0 true) ++
        PoolEvent.spawn (InviteOp.revoke 1 7 5) :: List.replicate 3 (PoolEvent.step 1 true))
    let es := List.replicate 5 (PoolEvent.step 0 true) ++ sampleRedemption 2 3
    p.threads[1]? = some (.revoke 1 7 5, some (.ret (.ok ()))) ∧
      ActivatedByCallback sampleTokens 7 (runEvents (poolStep (inviteSystem sampleTokens)) p es)
        (.step 3 true) := by
  refine ⟨by rfl, ⟨by decide, by decide⟩, 3,
    .googleCallback ⟨"g7", "new@example.org", true⟩ 9, "g7", 9, rfl, ?_⟩
  decide

end Invitations
end Api
end ZeroVpn
