import ZeroVpn.Api.InvitationActivation
import ZeroVpn.Worker.Aggregator

/-!
# The purge of accounts that were never activated

`run_once` of `retention.rs` deletes the accounts that wait for their activation
for more than seven days, with their invitations (`ON DELETE CASCADE`).  The
purge looks at `users.created_at`; the expiry of a link is counted from the
request that wrote it, and `resend`, `create_link` and a second `create_user`
write a new link for an account of any age.

The requests on invitations and the passes are one machine: a request makes one
call at a time at an instant of the database clock, and a pass may come between
any two calls.  `PurgesOnlyDead` says that a pass deletes no account with a link
that can still be used; `LinkWithinPurge` is the condition on the calls.
-/

namespace ZeroVpn

open Library

namespace Worker
namespace Retention

open Db (Uuid toTimestamp nanosPerDay)
open Api.Invitations (Invitation Registry Tokens InviteCmd InviteOp InvitePool inviteSystem
  inviteIdle)
open Api.Sessions (Account)

/-- `PENDING_VERIFICATION_PURGE_DAYS`. -/
def pendingVerificationPurgeDays : Int := 7

/-- `PENDING_VERIFICATION_PURGE_DAYS`, in microseconds. -/
def purgeWindow : Int := pendingVerificationPurgeDays * 86400 * 1000000

/-- The invitations, the requests on them, and the columns that the purge reads. -/
structure Lifecycle where
  pool : InvitePool
  /-- `users.created_at`. -/
  createdAt : Uuid → Int
  /-- `users.email_verified_at`. -/
  emailVerifiedAt : Uuid → Option Int

inductive LifeEvent where
  /-- An event of the requests, at an instant of the database clock. -/
  | request (clock : Int) (e : PoolEvent InviteOp Unit)
  /-- A pass of `run_once` that reaches the purge of the accounts, or fails before. -/
  | retention (now : Int) (reached : Bool)

/-- The link is unexpired, not revoked and not accepted. -/
def usable (now : Int) (r : Invitation) : Bool :=
  r.pending && decide (toTimestamp now < r.expiresAt)

/-- The user of an invitation is a row of `users`. -/
def userExists (s : Registry) (userId : Uuid) : Bool := s.users.any fun u => u.id == userId

/-- The call inserts an invitation for no user; the foreign key refuses it. -/
def violatesForeignKey (s : Registry) : InviteCmd → Bool
  | .upsert userId .. => !userExists s userId
  | _ => false

/-- The event, with the calls that the foreign key refuses as failures. -/
def constrained (p : InvitePool) : PoolEvent InviteOp Unit → PoolEvent InviteOp Unit
  | .step i ok => .step i (ok && !(nextCall p i).any fun x => violatesForeignKey p.shared x.2)
  | e => e

/-- `created_at` is written by the insertion. -/
def stampCreated (clock : Int) (s : Registry) (c : InviteCmd) (col : Uuid → Int) : Uuid → Int :=
  match c with
  | .createUser id email role =>
      if (s.createUser id email role).2.isOk then Function.update col id clock else col
  | _ => col

/-- `email_verified_at` is written by the acceptance of an invitation, and by `link_google`
unless it has a value. -/
def stampVerified (clock : Int) (s : Registry) (c : InviteCmd) (col : Uuid → Option Int) :
    Uuid → Option Int :=
  match c with
  | .createUser id email role =>
      if (s.createUser id email role).2.isOk then Function.update col id none else col
  | .accept id googleId now =>
      if (s.accept id googleId now).2.toOption = some .accepted then
        Function.update col id (some clock)
      else col
  | .linkGoogle id googleId =>
      if (s.linkGoogle id googleId).2.toOption.any (0 < ·) then
        Function.update col id (some ((col id).getD clock))
      else col
  | _ => col

/-- The call that an event lets through. -/
def issuedCall (p : InvitePool) : PoolEvent InviteOp Unit → Option InviteCmd
  | .step i true => (nextCall p i).map Prod.snd
  | _ => none

/-- The `WHERE` clause of the purge. -/
def Lifecycle.stale (l : Lifecycle) (now : Int) (u : Account) : Bool :=
  u.status == .pendingVerification && (l.emailVerifiedAt u.id).isNone &&
    decide (l.createdAt u.id < cutoff now pendingVerificationPurgeDays)

/-- The `DELETE` of the accounts that were never activated, and its cascade. -/
def Lifecycle.purge (l : Lifecycle) (now : Int) : Lifecycle :=
  let s := l.pool.shared
  { l with
    pool := { l.pool with
      shared := { s with
        users := s.users.filter fun u => !l.stale now u
        invitations := s.invitations.filter fun r =>
          !s.users.any fun u => l.stale now u && u.id == r.userId } } }

def lifeStep (k : Tokens) (l : Lifecycle) : LifeEvent → Lifecycle
  | .request clock e =>
      let e := constrained l.pool e
      { pool := poolStep (inviteSystem k) l.pool e
        createdAt := (issuedCall l.pool e).elim l.createdAt fun c =>
          stampCreated clock l.pool.shared c l.createdAt
        emailVerifiedAt := (issuedCall l.pool e).elim l.emailVerifiedAt fun c =>
          stampVerified clock l.pool.shared c l.emailVerifiedAt }
  | .retention now reached => if reached then l.purge now else l

/-- Accounts without invitations. -/
def newcomers (users : List Account) (createdAt : Uuid → Int)
    (emailVerifiedAt : Uuid → Option Int) : Lifecycle where
  pool := inviteIdle (Api.Invitations.noInvitations users)
  createdAt := createdAt
  emailVerifiedAt := emailVerifiedAt

/-- A pass keeps every account whose invitation is usable. -/
def PurgesOnlyDead (k : Tokens) (l : Lifecycle) : LifeEvent → Prop
  | .request .. => True
  | .retention now reached =>
      ∀ u ∈ l.pool.shared.users, ∀ r ∈ l.pool.shared.invitations, r.userId = u.id →
        usable now r = true → u ∈ (lifeStep k l (.retention now reached)).pool.shared.users

/-- The account and the expiry of the link that a call writes. -/
def writtenLink : InviteCmd → Option (Uuid × Int)
  | .upsert userId _ expiresAt | .replaceLink userId _ expiresAt => some (userId, expiresAt)
  | _ => none

/-- The condition on one event: a link expires within seven days of its account's creation. -/
def LinkWithinPurge (l : Lifecycle) : LifeEvent → Prop
  | .request _ e =>
      ∀ link ∈ (issuedCall l.pool (constrained l.pool e)).bind writtenLink,
        link.2 ≤ l.createdAt link.1 + purgeWindow
  | .retention .. => True

instance (l : Lifecycle) : (e : LifeEvent) → Decidable (LinkWithinPurge l e)
  | .request _ e => inferInstanceAs (Decidable
      (∀ link ∈ (issuedCall l.pool (constrained l.pool e)).bind writtenLink,
        link.2 ≤ l.createdAt link.1 + purgeWindow))
  | .retention .. => .isTrue trivial

section Calls

variable {k : Tokens} {s : Registry} {c : InviteCmd}

theorem userExists_iff {id : Uuid} :
    userExists s id = true ↔ ∃ u ∈ s.users, u.id = id := by
  simp [userExists, List.any_eq_true]

/-- An update that keeps the keys of the accounts keeps the accounts. -/
theorem userExists_of_ids {s' : Registry} {id : Uuid}
    (hids : s'.users.map Account.id = s.users.map Account.id) (h : userExists s id = true) :
    userExists s' id = true := by
  obtain ⟨u, hu, hid⟩ := userExists_iff.mp h
  have hmem : u.id ∈ s'.users.map Account.id := by
    rw [hids]
    exact List.mem_map_of_mem hu
  obtain ⟨u', hu', hid'⟩ := List.mem_map.mp hmem
  exact userExists_iff.mpr ⟨u', hu', hid'.trans hid⟩

/-- No call of a request removes an account. -/
theorem userExists_exec {id : Uuid} (h : userExists s id = true) :
    userExists (c.exec k s).1 id = true := by
  cases c with
  | createUser newId email role =>
      simp only [InviteCmd.exec, Registry.createUser]
      split
      · exact h
      · simp only [userExists, List.any_append, Bool.or_eq_true]
        exact Or.inl h
  | updateRole userId role =>
      refine userExists_of_ids (map_updateWhere ?_ s.users) h
      exact fun _ => rfl
  | adminSetStatus userId status =>
      refine userExists_of_ids (map_updateWhere ?_ s.users) h
      exact fun _ => rfl
  | linkGoogle userId googleId =>
      simp only [InviteCmd.exec, Registry.linkGoogle]
      split
      · exact h
      · refine userExists_of_ids (map_updateWhere ?_ s.users) h
        exact fun _ => rfl
  | accept userId googleId now =>
      simp only [InviteCmd.exec, Registry.accept]
      split
      · exact h
      split
      · exact h
      split
      · exact h
      · refine userExists_of_ids (map_updateWhere ?_ s.users) h
        exact fun _ => rfl
  | upsert userId token expiresAt =>
      simp only [InviteCmd.exec, Registry.upsert]
      split <;> exact h
  | replaceLink userId token expiresAt =>
      simp only [InviteCmd.exec, Registry.replaceLink]
      split
      · exact h
      split <;> exact h
  | revoke userId now =>
      simp only [InviteCmd.exec, Registry.revoke]
      split <;> exact h
  | _ =>
      exact h

/-- The creation of an account writes no other account's `created_at`. -/
theorem stampCreated_of_exists {clock : Int} {col : Uuid → Int} {id : Uuid}
    (h : userExists s id = true) : stampCreated clock s c col id = col id := by
  cases c with
  | createUser newId email role =>
      by_cases hne : id = newId
      · subst hne
        have hconflict : (s.users.any fun u => u.id == id || u.email == email) = true := by
          obtain ⟨u, hu, hid⟩ := userExists_iff.mp h
          exact List.any_eq_true.mpr ⟨u, hu, by simp [hid]⟩
        simp [stampCreated, Registry.createUser, hconflict, Except.isOk, Except.toBool]
      · simp only [stampCreated]
        split
        · exact Function.update_of_ne hne clock col
        · rfl
  | _ =>
      rfl

/-- An invitation belongs to a user, and it is an old one or one that the call writes. -/
def Accounted (s : Registry) (c : InviteCmd) (r' : Invitation) : Prop :=
  userExists s r'.userId = true ∧
    ((∃ r ∈ s.invitations, r.userId = r'.userId ∧ r.expiresAt = r'.expiresAt) ∨
      writtenLink c = some (r'.userId, r'.expiresAt))

theorem accounted_exec (howned : ∀ r ∈ s.invitations, userExists s r.userId = true)
    (hkey : violatesForeignKey s c = false) :
    ∀ r' ∈ (c.exec k s).1.invitations, Accounted s c r' := by
  have hsame : ∀ r ∈ s.invitations, Accounted s c r := fun r hr =>
    ⟨howned r hr, Or.inl ⟨r, hr, rfl, rfl⟩⟩
  cases c with
  | upsert userId token expiresAt =>
      have hnew : Accounted s (.upsert userId token expiresAt)
          (Registry.issued k userId token expiresAt) :=
        ⟨by simpa [violatesForeignKey, Registry.issued] using hkey, Or.inr rfl⟩
      simp only [InviteCmd.exec, Registry.upsert]
      split
      · exact hsame
      dsimp only [upsertRow]
      split
      · exact forall_updateWhere hsame fun _ _ _ _ => hnew
      · intro r' hr'
        rcases List.mem_append.mp hr' with hold | hwritten
        · exact hsame r' hold
        · rw [List.mem_singleton.mp hwritten]
          exact hnew
  | replaceLink userId token expiresAt =>
      simp only [InviteCmd.exec, Registry.replaceLink]
      split
      · exact hsame
      split
      · exact hsame
      · refine forall_updateWhere hsame ?_
        intro r hr hopen _
        have hid : r.userId = userId := eq_of_beq (Bool.and_eq_true_iff.mp hopen).1
        refine ⟨?_, Or.inr rfl⟩
        rw [← howned r hr, hid]
        rfl
  | verify token now =>
      exact forall_updateWhere hsame fun _ _ _ h => h
  | revoke userId now =>
      simp only [InviteCmd.exec, Registry.revoke]
      split
      · exact hsame
      · exact forall_updateWhere hsame fun _ _ _ h => h
  | accept userId googleId now =>
      simp only [InviteCmd.exec, Registry.accept]
      split
      · exact hsame
      split
      · exact hsame
      split
      · exact hsame
      · exact forall_updateWhere hsame fun _ _ _ h => h
  | createUser newId email role =>
      simp only [InviteCmd.exec, Registry.createUser]
      split <;> exact hsame
  | linkGoogle userId googleId =>
      simp only [InviteCmd.exec, Registry.linkGoogle]
      split <;> exact hsame
  | _ =>
      exact hsame

end Calls

section Runs

variable {k : Tokens} {l : Lifecycle} {e : LifeEvent}

theorem shared_poolStep (p : InvitePool) (e : PoolEvent InviteOp Unit) :
    (poolStep (inviteSystem k) p e).shared =
      (issuedCall p e).elim p.shared fun c => (c.exec k p.shared).1 := by
  cases e with
  | step i ok =>
      simp only [poolStep]
      split
      · rename_i op c q hi
        cases ok with
        | false =>
            rfl
        | true =>
            simp only [issuedCall, nextCall, hi]
            rfl
      · rename_i hnone
        cases ok with
        | false =>
            rfl
        | true =>
            have hnext : nextCall p i = none := by
              unfold nextCall
              split
              · rename_i op c q hi
                exact absurd hi (hnone op c q)
              · rfl
            simp only [issuedCall, hnext]
            rfl
  | crash i =>
      simp only [poolStep]
      split <;> rfl
  | spawn op =>
      rfl
  | restart g =>
      rfl

/-- The foreign key lets through what it does not refuse. -/
theorem foreignKey_of_issued {p : InvitePool} {e : PoolEvent InviteOp Unit} {c : InviteCmd}
    (h : issuedCall p (constrained p e) = some c) : violatesForeignKey p.shared c = false := by
  cases e with
  | step i ok =>
      simp only [constrained] at h
      cases hallowed : ok && !(nextCall p i).any fun x => violatesForeignKey p.shared x.2 with
      | false =>
          rw [hallowed] at h
          cases h
      | true =>
          rw [hallowed] at h
          simp only [issuedCall, Option.map_eq_some_iff] at h
          obtain ⟨x, hnext, rfl⟩ := h
          simpa [hnext] using (Bool.and_eq_true_iff.mp hallowed).2
  | spawn op =>
      cases h
  | crash i =>
      cases h
  | restart g =>
      cases h

/-- Every invitation has a user and expires within seven days of the user's creation. -/
structure Punctual (l : Lifecycle) : Prop where
  owned : ∀ r ∈ l.pool.shared.invitations, userExists l.pool.shared r.userId = true
  inTime : ∀ r ∈ l.pool.shared.invitations,
    r.expiresAt ≤ l.createdAt r.userId + purgeWindow

theorem punctual_request (h : Punctual l) {clock : Int} {e : PoolEvent InviteOp Unit}
    (he : LinkWithinPurge l (.request clock e)) : Punctual (lifeStep k l (.request clock e)) := by
  cases hcall : issuedCall l.pool (constrained l.pool e) with
  | none =>
      have hshared := shared_poolStep (k := k) l.pool (constrained l.pool e)
      rw [hcall] at hshared
      constructor
      · simp only [lifeStep, hshared]
        exact h.owned
      · simp only [lifeStep, hshared, hcall]
        exact h.inTime
  | some c =>
      have hshared := shared_poolStep (k := k) l.pool (constrained l.pool e)
      rw [hcall] at hshared
      have hrows := accounted_exec (k := k) h.owned (foreignKey_of_issued hcall)
      constructor
      · simp only [lifeStep, hshared]
        intro r hr
        exact userExists_exec (hrows r hr).1
      · simp only [lifeStep, hshared, hcall, Option.elim_some]
        intro r hr
        obtain ⟨hexists, hrow⟩ := hrows r hr
        rw [stampCreated_of_exists hexists]
        rcases hrow with ⟨r₀, hr₀, hid, hexpires⟩ | hlink
        · rw [← hid, ← hexpires]
          exact h.inTime r₀ hr₀
        · refine he (r.userId, r.expiresAt) ?_
          rw [hcall]
          exact hlink

theorem punctual_purge (h : Punctual l) (now : Int) : Punctual (l.purge now) where
  owned := by
    intro r hr
    obtain ⟨hold, hkept⟩ := List.mem_filter.mp hr
    obtain ⟨u, hu, hid⟩ := userExists_iff.mp (h.owned r hold)
    refine userExists_iff.mpr ⟨u, List.mem_filter.mpr ⟨hu, ?_⟩, hid⟩
    cases hstale : l.stale now u with
    | false =>
        rfl
    | true =>
        have hany : (l.pool.shared.users.any fun u => l.stale now u && u.id == r.userId) = true :=
          List.any_eq_true.mpr ⟨u, hu, by simp [hstale, hid]⟩
        rw [hany] at hkept
        cases hkept
  inTime := by
    intro r hr
    exact h.inTime r (List.mem_filter.mp hr).1

theorem punctual_step (h : Punctual l) (he : LinkWithinPurge l e) : Punctual (lifeStep k l e) := by
  cases e with
  | request clock e =>
      exact punctual_request h he
  | retention now reached =>
      cases reached with
      | false =>
          exact h
      | true =>
          exact punctual_purge h now

/-- The link of an account that the purge finds has expired. -/
theorem not_usable_of_stale (h : Punctual l) {now : Int} {u : Account} {r : Invitation}
    (hr : r ∈ l.pool.shared.invitations) (hid : r.userId = u.id) (hstale : l.stale now u = true) :
    usable now r = false := by
  have hcreated : l.createdAt u.id < cutoff now pendingVerificationPurgeDays := by
    simp only [Lifecycle.stale, Bool.and_eq_true, decide_eq_true_eq] at hstale
    exact hstale.2
  have hold :
      Db.ofTimestamp (l.createdAt u.id) < now - pendingVerificationPurgeDays * nanosPerDay := by
    by_contra hnot
    have hle := Db.toTimestamp_mono (not_lt.mp hnot)
    rw [Db.toTimestamp_ofTimestamp] at hle
    exact absurd hcreated (not_lt.mpr hle)
  have hexpires := h.inTime r hr
  rw [hid] at hexpires
  have hdead : Db.ofTimestamp r.expiresAt ≤ now := by
    unfold Db.ofTimestamp pendingVerificationPurgeDays nanosPerDay at *
    unfold purgeWindow pendingVerificationPurgeDays at hexpires
    omega
  have hpassed := Db.toTimestamp_mono hdead
  rw [Db.toTimestamp_ofTimestamp] at hpassed
  simp [usable, hpassed]

theorem purgesOnlyDead_of_punctual (h : Punctual l) : PurgesOnlyDead k l e := by
  cases e with
  | request clock e =>
      trivial
  | retention now reached =>
      intro u hu r hr hid husable
      cases reached with
      | false =>
          exact hu
      | true =>
          refine List.mem_filter.mpr ⟨hu, ?_⟩
          cases hstale : l.stale now u with
          | false =>
              rfl
          | true =>
              rw [not_usable_of_stale h hr hid hstale] at husable
              cases husable

theorem punctual_newcomers (users : List Account) (createdAt : Uuid → Int)
    (emailVerifiedAt : Uuid → Option Int) :
    Punctual (newcomers users createdAt emailVerifiedAt) where
  owned := by
    intro r hr
    cases hr
  inTime := by
    intro r hr
    cases hr

end Runs

/--
No pass of the retention deletes an account whose invitation is usable, in every run in which
each link is written with an expiry within seven days of its account's creation.
-/
theorem purges_only_dead_invitations (k : Tokens) (users : List Account) (createdAt : Uuid → Int)
    (emailVerifiedAt : Uuid → Option Int) (es : List LifeEvent)
    (hrun : Along (lifeStep k) LinkWithinPurge (newcomers users createdAt emailVerifiedAt) es) :
    Along (lifeStep k) (PurgesOnlyDead k) (newcomers users createdAt emailVerifiedAt) es :=
  along_of_inv Punctual (fun _ _ h he => punctual_step h he)
    (fun _ _ h _ => purgesOnlyDead_of_punctual h)
    (punctual_newcomers users createdAt emailVerifiedAt) hrun

/-- A number of half days, in microseconds. -/
def halfDays (n : Int) : Int := n * 43200 * 1000000

/-- The calls of one request. -/
def callsAt (clock : Int) (op : InviteOp) (i n : Nat) : List LifeEvent :=
  .request clock (.spawn op) :: List.replicate n (.request clock (.step i true))

/-- Account 7 is invited at the start. -/
def sampleInvite : List LifeEvent :=
  callsAt 0 (.createUser 1 7 "new@example.org" .user 0) 0 8

def sampleStart : Lifecycle := newcomers [Api.Invitations.sampleAdmin] (fun _ => 0) fun _ => none

/-- The link is sent again after five days; the account goes with a dead link after eight. -/
theorem purges_only_dead_invitations_sample :
    Along (lifeStep Api.Invitations.sampleTokens) (PurgesOnlyDead Api.Invitations.sampleTokens)
      sampleStart (sampleInvite ++ callsAt (halfDays 10) (.resend 1 7 (halfDays 10)) 1 8 ++
        [.retention (halfDays 16 * 1000) true]) :=
  purges_only_dead_invitations Api.Invitations.sampleTokens [Api.Invitations.sampleAdmin]
    (fun _ => 0) (fun _ => none) _ (by decide)

/-- The link is sent again after six and a half days, for one day.  A pass half a day and a
second later deletes the account. -/
theorem live_invitation_is_purged :
    let l := runEvents (lifeStep Api.Invitations.sampleTokens) sampleStart
      (sampleInvite ++ callsAt (halfDays 13) (.resend 1 7 (halfDays 13)) 1 8)
    ¬ PurgesOnlyDead Api.Invitations.sampleTokens l
      (.retention ((halfDays 14 + 1000000) * 1000) true) := by
  intro l hspared
  have hgone : (lifeStep Api.Invitations.sampleTokens l
      (.retention ((halfDays 14 + 1000000) * 1000) true)).pool.shared.users =
      [Api.Invitations.sampleAdmin] := by
    decide
  have hkept := hspared ⟨7, "new@example.org", none, .user, .pendingVerification, false, 0⟩
    (by decide)
    (Registry.issued Api.Invitations.sampleTokens 7 (Api.Invitations.sampleTokens.fresh 1)
      (halfDays 15)) (by decide) rfl (by decide)
  rw [hgone] at hkept
  revert hkept
  decide

end Retention
end Worker
end ZeroVpn
