import ZeroVpn.Api.Sessions
import ZeroVpn.Library.Notes

/-!
# Signing out everywhere

`revoke_other_sessions` of `routes/me.rs` and `admin_revoke_sessions` of
`routes/admin.rs` over the session store and the accounts, with the logins and
the extractor `CurrentUser`.  Every statement and every access of the session
store is one call, so the requests of different sessions interleave; a request
loads its session at the first access and saves it after its answer.

A sign-out moves `password_changed_at` to the present.  A session holds the
value of its login in whole seconds, so it is cut off only if the sign-out falls
in another second.  `revoke_other_sessions` copies the new value into its own
session at its end; a request of that kind that another sign-out overtakes keeps
its session in the same way.

`AuthState.cut` is not part of the program: it records the sessions that a
sign-out was to end and that have not logged in since.
-/

namespace ZeroVpn

open Library

namespace Api
namespace Sessions

open Db (Uuid)

/-- The identifier of a stored session. -/
abbrev SessionId := BitVec 128

structure AuthState where
  /-- The rows of `users` that are not deleted. -/
  accounts : List Account
  /-- `tower_sessions.session`. -/
  store : SessionId → Option Session
  /-- `user_sessions`: the sessions that the extractor has seen. -/
  seen : List (SessionId × Uuid)
  /-- The sessions of a user that a sign-out was to end. -/
  cut : Uuid → SessionId → Bool

/-- Why a session is saved. -/
inductive Saver where
  | login
  | revokeOtherSessions
  deriving DecidableEq

inductive AuthCmd where
  | load (sid : SessionId)
  | findById (id : Uuid)
  | upsertSeen (sid : SessionId) (id : Uuid)
  | killAllSessions (caller : Option SessionId) (id : Uuid) (now : Int)
  | findPasswordChangedAt (id : Uuid)
  | revokeAllExcept (id : Uuid) (keep : SessionId)
  | touchLastLogin (id : Uuid)
  | audit (action : String) (target : Uuid)
  | save (saver : Saver) (sid : SessionId) (session : Session)
  | flush (sid : SessionId)

/-- Nothing is answered when the statement fails. -/
def AuthCmd.Reply : AuthCmd → Type
  | load _ => Option Session
  | findById _ => Option (Option Account)
  | killAllSessions .. => Option Nat
  | findPasswordChangedAt _ => Option (Option Int)
  | upsertSeen .. | revokeAllExcept .. | touchLastLogin _ | audit .. | save .. | flush _ =>
      Option Unit

/-- `UPDATE users SET password_changed_at = NOW()`. -/
def kill (id : Uuid) (now : Int) (a : Account) : Account :=
  if a.id = id then { a with passwordChangedAt := now } else a

namespace AuthState

/-- The session behind a cookie; an unknown one is empty. -/
def session (s : AuthState) (sid : SessionId) : Session := (s.store sid).getD .empty

/-- The session is the user's. -/
def owns (s : AuthState) (id : Uuid) (sid : SessionId) : Bool :=
  (s.session sid).userId == some id

def killAllSessions (s : AuthState) (caller : Option SessionId) (id : Uuid) (now : Int) :
    AuthState :=
  { s with
    accounts := s.accounts.map (kill id now)
    cut := fun u sid => s.cut u sid || (u == id && s.owns id sid && !(caller == some sid)) }

/-- The sessions that the extractor has seen as the user's are erased. -/
def revokeAllExcept (s : AuthState) (id : Uuid) (keep : SessionId) : AuthState :=
  { s with
    store := fun sid => if s.seen.any (fun x => x.1 == sid && x.2 == id) && sid != keep then none
      else s.store sid
    seen := s.seen.filter fun x => !(x.2 == id && x.1 != keep) }

def upsertSeen (s : AuthState) (sid : SessionId) (id : Uuid) : AuthState :=
  if s.seen.any (fun x => x.1 == sid) then s else { s with seen := (sid, id) :: s.seen }

def save (s : AuthState) (saver : Saver) (sid : SessionId) (session : Session) : AuthState :=
  { s with
    store := Function.update s.store sid (some session)
    cut := fun u other => s.cut u other &&
      !(saver == .login && other == sid && session.userId == some u) }

def flush (s : AuthState) (sid : SessionId) : AuthState :=
  { s with store := Function.update s.store sid none }

end AuthState

def AuthCmd.sem : (c : AuthCmd) → Bool → AuthState → AuthState × c.Reply
  | load sid, true, s => (s, some (s.session sid))
  | findById id, true, s => (s, some (Sessions.findById s.accounts id))
  | upsertSeen sid id, true, s => (s.upsertSeen sid id, some ())
  | killAllSessions caller id now, true, s =>
      (s.killAllSessions caller id now, some (s.accounts.countP fun a => a.id == id))
  | findPasswordChangedAt id, true, s =>
      (s, some ((Sessions.findById s.accounts id).map Account.passwordChangedAt))
  | revokeAllExcept id keep, true, s => (s.revokeAllExcept id keep, some ())
  | touchLastLogin _, true, s => (s, some ())
  | audit .., true, s => (s, some ())
  | save saver sid session, true, s => (s.save saver sid session, some ())
  | flush sid, true, s => (s.flush sid, some ())
  | load _, false, s => (s, none)
  | findById _, false, s => (s, none)
  | upsertSeen .., false, s => (s, none)
  | killAllSessions .., false, s => (s, none)
  | findPasswordChangedAt _, false, s => (s, none)
  | revokeAllExcept .., false, s => (s, none)
  | touchLastLogin _, false, s => (s, none)
  | audit .., false, s => (s, none)
  | save .., false, s => (s, none)
  | flush _, false, s => (s, none)

abbrev AuthHandler (α : Type) := Attempt AuthCmd AuthCmd.Reply SessionError α

/-- A call that must succeed. -/
def attempt {α : Type} (c : AuthCmd) (f : c.Reply → Option α) : AuthHandler α :=
  Attempt.lift c fun r =>
    match f r with
    | some a => .ok a
    | none => .error (.internal "database")

def okOr {α : Type} (o : Option α) (e : SessionError) : AuthHandler α :=
  match o with
  | some a => pure a
  | none => throw e

def failIf (c : Bool) (e : SessionError) : AuthHandler Unit :=
  if c then throw e else pure ()

/-- The extractor `CurrentUser`, with the session that it loaded. -/
def extractUser (sid : SessionId) : AuthHandler (Account × Session) := do
  let session ← attempt (.load sid) id
  let userId ← okOr session.userId .unauthorized
  let found ← attempt (.findById userId) id
  let user ← okOr found .unauthorized
  failIf (user.status != .active) .forbidden
  failIf (session.pwChangedAt != some user.watermark) .unauthorized
  -- a failure of the bookkeeping is logged
  let _ ← attempt (.upsertSeen sid user.id) some
  pure (user, session)

/-- The end of a login: the row of the user was read, and the session is saved. -/
def login (sid : SessionId) (userId : Uuid) : AuthHandler Unit := do
  let found ← attempt (.findById userId) id
  let user ← okOr found .forbidden
  failIf (user.status != .active) .forbidden
  let session ← attempt (.load sid) id
  attempt (.touchLastLogin user.id) id
  attempt (.save .login sid { session with
    userId := some user.id
    pwChangedAt := some user.watermark
    pendingTotpUser := none }) id

/-- `revoke_other_sessions`. -/
def revokeOtherSessions (sid : SessionId) (now : Int) : AuthHandler Unit := do
  let (user, session) ← extractUser sid
  let _ ← attempt (.killAllSessions (some sid) user.id now) id
  let watermark ← attempt (.findPasswordChangedAt user.id) id
  attempt (.revokeAllExcept user.id sid) id
  attempt (.audit "user.sessions_revoked" user.id) id
  match watermark with
  | some newWatermark =>
      attempt (.save .revokeOtherSessions sid
        { session with pwChangedAt := some (newWatermark / 1000000) }) id
  | none => pure ()

/-- `admin_revoke_sessions`. -/
def adminRevokeSessions (sid : SessionId) (targetId : Uuid) (now : Int) : AuthHandler Unit := do
  let (actor, _) ← extractUser sid
  failIf (actor.role != .admin) .forbidden
  let found ← attempt (.findById targetId) id
  let target ← okOr found .notFound
  let n ← attempt (.killAllSessions none target.id now) id
  failIf (n == 0) .notFound
  attempt (.audit "admin.user_sessions_revoked" target.id) id

/-- The requests. -/
inductive AuthOp where
  | login (sid : SessionId) (userId : Uuid)
  | logout (sid : SessionId)
  | request (sid : SessionId)
  | revokeOtherSessions (sid : SessionId) (now : Int)
  | adminRevokeSessions (sid : SessionId) (targetId : Uuid) (now : Int)

def AuthOp.handler : AuthOp → AuthHandler Unit
  | login sid userId => Sessions.login sid userId
  | logout sid => attempt (.flush sid) id
  | request sid => do
      let _ ← extractUser sid
      pure ()
  | revokeOtherSessions sid now => Sessions.revokeOtherSessions sid now
  | adminRevokeSessions sid targetId now => Sessions.adminRevokeSessions sid targetId now

/-- Requests of any number of sessions, each one call at a time. -/
def authSystem : System AuthState AuthOp Unit AuthCmd AuthCmd.Reply (Except SessionError Unit) where
  body op := op.handler.run
  sem _ c ok s := c.sem ok s
  crash _ s := s
  restart _ s := s

abbrev AuthPool := Pool AuthState AuthOp AuthCmd AuthCmd.Reply (Except SessionError Unit)

def authIdle (s : AuthState) : AuthPool where
  shared := s
  threads := []

/-- The extractor accepts the session as that of the user. -/
def AuthState.Accepts (s : AuthState) (sid : SessionId) (u : Uuid) : Prop :=
  ∃ user, currentUser s.accounts (s.session sid) = .ok user ∧ user.id = u

/-- No session that a sign-out was to end is accepted. -/
def SignedOut (s : AuthState) : Prop := ∀ u sid, s.cut u sid = true → ¬ s.Accepts sid u

/-- The user of a call of `revoke_other_sessions` up to the read of the new watermark. -/
def AuthCmd.actsFor : AuthCmd → Option Uuid
  | upsertSeen _ id => some id
  | killAllSessions _ id _ => some id
  | findPasswordChangedAt id => some id
  | _ => none

/-- The request keeps its session alive. -/
def AuthOp.keepsSession : AuthOp → Bool
  | revokeOtherSessions .. => true
  | _ => false

/-- A `revoke_other_sessions` of the user that has passed the extractor and has not read
the new watermark. -/
def underWay (id : Uuid) : Option (AuthOp × AuthCmd) → Bool
  | some (op, c) => op.keepsSession && c.actsFor == some id
  | none => false

/-- The call changes no account and saves no session. -/
def AuthCmd.erasesOnly : AuthCmd → Bool
  | killAllSessions .. | save .. => false
  | _ => true

theorem AuthCmd.sem_of_erasesOnly (c : AuthCmd) (hc : c.erasesOnly = true) (ok : Bool)
    (s : AuthState) :
    (c.sem ok s).1.accounts = s.accounts ∧ (c.sem ok s).1.cut = s.cut ∧
      ∀ sid, (c.sem ok s).1.store sid = s.store sid ∨ (c.sem ok s).1.store sid = none := by
  cases ok with
  | false =>
      cases c <;> exact ⟨rfl, rfl, fun _ => Or.inl rfl⟩
  | true =>
      cases c with
      | killAllSessions caller id now =>
          cases hc
      | save saver sid session =>
          cases hc
      | upsertSeen sid id =>
          simp only [AuthCmd.sem, AuthState.upsertSeen]
          split <;> exact ⟨rfl, rfl, fun _ => Or.inl rfl⟩
      | revokeAllExcept id keep =>
          refine ⟨rfl, rfl, fun sid => ?_⟩
          simp only [AuthCmd.sem, AuthState.revokeAllExcept]
          split
          · exact Or.inr rfl
          · exact Or.inl rfl
      | flush gone =>
          refine ⟨rfl, rfl, fun sid => ?_⟩
          simp only [AuthCmd.sem, AuthState.flush]
          by_cases hsid : sid = gone
          · exact Or.inr (by rw [hsid, Function.update_self])
          · exact Or.inl (Function.update_of_ne hsid _ _)
      | _ =>
          exact ⟨rfl, rfl, fun _ => Or.inl rfl⟩

/-- The user and the time of a sign-out. -/
def killOf : Option (AuthOp × AuthCmd) → Option (Uuid × Int)
  | some (_, .killAllSessions _ id now) => some (id, now)
  | _ => none

/-- The sign-out falls in a later second than the stored watermark. -/
def LaterSecond (accounts : List Account) (id : Uuid) (now : Int) : Prop :=
  (findById accounts id).all (fun a => decide (a.watermark < now / 1000000)) = true

/-- The condition on a sign-out of thread `i`. -/
def TimelyKill (p : AuthPool) (i : Nat) : Option (Uuid × Int) → Prop
  | some (id, now) =>
      LaterSecond p.shared.accounts id now ∧
        ∀ j < p.threads.length, j ≠ i → underWay id (nextCall p j) = false
  | none => True

instance (p : AuthPool) (i : Nat) : (x : Option (Uuid × Int)) → Decidable (TimelyKill p i x)
  | some (id, now) =>
      inferInstanceAs (Decidable
        ((findById p.shared.accounts id).all (fun a => decide (a.watermark < now / 1000000)) = true ∧
          ∀ j < p.threads.length, j ≠ i → underWay id (nextCall p j) = false))
  | none => .isTrue trivial

/-- Every sign-out falls in a later second than the watermark of its user, and no other
`revoke_other_sessions` of that user is under way. -/
def Timely (p : AuthPool) : PoolEvent AuthOp Unit → Prop
  | .step i ok => ok = true → TimelyKill p i (killOf (nextCall p i))
  | _ => True

instance (p : AuthPool) : (e : PoolEvent AuthOp Unit) → Decidable (Timely p e)
  | .step i ok => inferInstanceAs (Decidable (ok = true → TimelyKill p i (killOf (nextCall p i))))
  | .spawn _ | .crash _ | .restart _ => .isTrue trivial

/-- What a request remembers. -/
inductive SessionNote where
  | idle
  /-- The request holds the watermark of its session. -/
  | loaded (sid : SessionId) (id : Uuid) (pw : Option Int)
  /-- A login has read the row. -/
  | row (id : Uuid) (pw : Int)
  /-- `revoke_other_sessions` has passed the extractor and will read the new watermark. -/
  | kept (sid : SessionId) (id : Uuid)

/-- A watermark that is no newer than that of the row. -/
def UpTo (s : AuthState) (id : Uuid) (pw : Int) : Prop :=
  ∀ a, findById s.accounts id = some a → pw ≤ a.watermark

/-- It is older if the session was cut. -/
def Dated (s : AuthState) (id : Uuid) (sid : SessionId) (pw : Int) : Prop :=
  UpTo s id pw ∧
    ∀ a, findById s.accounts id = some a → s.cut id sid = true → pw < a.watermark

def NoteHolds (s : AuthState) : SessionNote → Prop
  | .idle => True
  | .loaded sid id pw => ∀ x, pw = some x → Dated s id sid x
  | .row id pw => UpTo s id pw
  | .kept sid id => s.cut id sid = false

/-- Stored and remembered watermarks are dated. -/
structure CutOff (s : AuthState) (μ : Nat → SessionNote) : Prop where
  stored : ∀ sid id x, (s.session sid).userId = some id → (s.session sid).pwChangedAt = some x →
    Dated s id sid x
  notes : ∀ i, NoteHolds s (μ i)

/-- The request does not keep a session. -/
def NotKept (m : SessionNote) : Prop := ∀ sid id, m ≠ .kept sid id

/-- A request that keeps its session is under way. -/
def SuitsSession (op : AuthOp) (c : AuthCmd) (m : SessionNote) : Prop :=
  ∀ sid id, m = .kept sid id → underWay id (some (op, c)) = true

/-- The condition of a call, in terms of the notes. -/
def CallTimely (i : Nat) (op : AuthOp) (c : AuthCmd) (ok : Bool) (s : AuthState)
    (μ : Nat → SessionNote) : Prop :=
  ok = true → ∀ id now, killOf (some (op, c)) = some (id, now) →
    LaterSecond s.accounts id now ∧ ∀ j, j ≠ i → ∀ sid, μ j ≠ .kept sid id

/-- A request with note `m` may run `p`, and ends with `Q`. -/
abbrev Respects {α : Type} (i : Nat) (op : AuthOp)
    (Q : Except SessionError α → SessionNote → Prop) (p : AuthHandler α) (m : SessionNote) : Prop :=
  Follows authSystem CutOff SuitsSession CallTimely i op Q p.run m

section Steps

variable {s s' : AuthState} {μ : Nat → SessionNote} {i : Nat} {m : SessionNote}

/-- Rewriting the note of one request. -/
theorem CutOff.step (h : CutOff s μ)
    (hstored : ∀ sid id x, (s'.session sid).userId = some id →
      (s'.session sid).pwChangedAt = some x → Dated s' id sid x)
    (hnotes : ∀ j, j ≠ i → NoteHolds s (μ j) → NoteHolds s' (μ j)) (hm : NoteHolds s' m) :
    CutOff s' (Function.update μ i m) := by
  refine ⟨hstored, ?_⟩
  intro j
  by_cases hji : j = i
  · rw [hji, Function.update_self]
    exact hm
  · rw [Function.update_of_ne hji]
    exact hnotes j hji (h.notes j)

theorem CutOff.note (h : CutOff s μ) (hm : NoteHolds s m) : CutOff s (Function.update μ i m) :=
  h.step h.stored (fun _ _ hj => hj) hm

section SameAccounts

variable (haccounts : s'.accounts = s.accounts)
variable (hcut : ∀ id sid, s'.cut id sid = true → s.cut id sid = true)

include haccounts in
theorem upTo_of_accounts {id : Uuid} {pw : Int} (h : UpTo s id pw) : UpTo s' id pw := by
  intro a ha
  rw [haccounts] at ha
  exact h a ha

include haccounts hcut in
theorem dated_of_cut {id : Uuid} {sid : SessionId} {pw : Int} (h : Dated s id sid pw) :
    Dated s' id sid pw := by
  refine ⟨upTo_of_accounts haccounts h.1, ?_⟩
  intro a ha hc
  rw [haccounts] at ha
  exact h.2 a ha (hcut id sid hc)

include haccounts hcut in
/-- A state with the same accounts and no more sessions cut. -/
theorem noteHolds_of_cut (h : NoteHolds s m) : NoteHolds s' m := by
  cases m with
  | idle =>
      trivial
  | loaded sid id pw =>
      intro x hx
      exact dated_of_cut haccounts hcut (h x hx)
  | row id pw =>
      exact upTo_of_accounts haccounts h
  | kept sid id =>
      refine Bool.eq_false_iff.mpr fun hc => ?_
      have hnot : s.cut id sid = false := h
      rw [hcut id sid hc] at hnot
      cases hnot

end SameAccounts

section Kill

theorem findById_kill (accounts : List Account) (id other : Uuid) (now : Int) :
    findById (accounts.map (kill id now)) other = (findById accounts other).map (kill id now) := by
  have hid : ∀ a : Account, (kill id now a).id = a.id := by
    intro a
    unfold kill
    split <;> rfl
  simp only [findById, List.find?_map]
  congr 2
  funext a
  simp [Function.comp, hid]

variable {caller : Option SessionId} {id other : Uuid} {now pw : Int} {sid : SessionId}
variable (hlater : LaterSecond s.accounts id now)

include hlater in
/-- After a timely sign-out the watermarks of its user are older than that of the row. -/
theorem lt_of_kill (h : UpTo s id pw) {a : Account}
    (ha : findById (s.killAllSessions caller id now).accounts id = some a) : pw < a.watermark := by
  simp only [AuthState.killAllSessions, findById_kill, Option.map_eq_some_iff] at ha
  obtain ⟨b, hb, rfl⟩ := ha
  have hle := h b hb
  have hsecond : b.watermark < now / 1000000 := by
    simpa [LaterSecond, hb] using hlater
  have hwatermark : (kill id now b).watermark = now / 1000000 := by
    simp [kill, findById_id hb, Account.watermark]
  omega

/-- A sign-out leaves the accounts of the others alone. -/
theorem findById_killed_of_ne (hne : other ≠ id) :
    findById (s.killAllSessions caller id now).accounts other = findById s.accounts other := by
  simp only [AuthState.killAllSessions, findById_kill]
  cases hb : findById s.accounts other with
  | none =>
      rfl
  | some b =>
      have hid : b.id ≠ id := fun hsame => hne ((findById_id hb).symm.trans hsame)
      rw [Option.map_some, kill, if_neg hid]

theorem cut_killed_of_ne (hne : other ≠ id) :
    (s.killAllSessions caller id now).cut other sid = s.cut other sid := by
  simp [AuthState.killAllSessions, hne]

include hlater in
theorem upTo_kill (h : UpTo s other pw) : UpTo (s.killAllSessions caller id now) other pw := by
  intro a ha
  by_cases hid : other = id
  · subst hid
    exact Int.le_of_lt (lt_of_kill hlater h ha)
  · rw [findById_killed_of_ne hid] at ha
    exact h a ha

include hlater in
theorem dated_kill (h : Dated s other sid pw) :
    Dated (s.killAllSessions caller id now) other sid pw := by
  refine ⟨upTo_kill hlater h.1, ?_⟩
  intro a ha hc
  by_cases hid : other = id
  · subst hid
    exact lt_of_kill hlater h.1 ha
  · rw [findById_killed_of_ne hid] at ha
    rw [cut_killed_of_ne hid] at hc
    exact h.2 a ha hc

include hlater in
theorem noteHolds_kill (hnot : ∀ sid, m ≠ .kept sid id) (h : NoteHolds s m) :
    NoteHolds (s.killAllSessions caller id now) m := by
  cases m with
  | idle =>
      trivial
  | loaded sid other pw =>
      intro x hx
      exact dated_kill hlater (h x hx)
  | row other pw =>
      exact upTo_kill hlater h
  | kept sid other =>
      have hne : other ≠ id := by
        rintro rfl
        exact hnot sid rfl
      exact (cut_killed_of_ne hne).trans h

include hlater in
/-- A timely sign-out. -/
theorem CutOff.kill (h : CutOff s μ) (hothers : ∀ j, j ≠ i → ∀ sid, μ j ≠ .kept sid id)
    (hm : NoteHolds (s.killAllSessions caller id now) m) :
    CutOff (s.killAllSessions caller id now) (Function.update μ i m) := by
  refine h.step ?_ (fun j hji hj => noteHolds_kill hlater (hothers j hji) hj) hm
  intro sid other x huser hpw
  exact dated_kill hlater (h.stored sid other x huser hpw)

end Kill

/-- A session is saved. -/
theorem CutOff.save (h : CutOff s μ) {saver : Saver} {sid : SessionId} {session : Session}
    (hdated : ∀ id x, session.userId = some id → session.pwChangedAt = some x →
      Dated (s.save saver sid session) id sid x) :
    CutOff (s.save saver sid session) (Function.update μ i .idle) := by
  have hcut : ∀ id other, (s.save saver sid session).cut id other = true →
      s.cut id other = true := by
    intro id other hc
    simp only [AuthState.save, Bool.and_eq_true] at hc
    exact hc.1
  have haccounts : (s.save saver sid session).accounts = s.accounts := rfl
  refine h.step ?_ (fun j _ hj => noteHolds_of_cut haccounts hcut hj) trivial
  intro other id x huser hpw
  by_cases hother : other = sid
  · subst hother
    simp only [AuthState.session, AuthState.save, Function.update_self, Option.getD_some]
      at huser hpw
    exact hdated id x huser hpw
  · simp only [AuthState.session, AuthState.save, Function.update_of_ne hother] at huser hpw
    exact dated_of_cut haccounts hcut (h.stored other id x huser hpw)

/-- Sessions are erased. -/
theorem CutOff.erase (h : CutOff s μ) (haccounts : s'.accounts = s.accounts)
    (hcut : s'.cut = s.cut) (hstore : ∀ sid, s'.store sid = s.store sid ∨ s'.store sid = none)
    (hm : NoteHolds s m) : CutOff s' (Function.update μ i m) := by
  have hsame : ∀ id sid, s'.cut id sid = true → s.cut id sid = true := by
    intro id sid hc
    rwa [hcut] at hc
  refine h.step ?_ (fun j _ hj => noteHolds_of_cut haccounts hsame hj)
    (noteHolds_of_cut haccounts hsame hm)
  intro sid id x huser hpw
  unfold AuthState.session at huser hpw
  rcases hstore sid with hkeep | hnone
  · rw [hkeep] at huser hpw
    exact dated_of_cut haccounts hsame (h.stored sid id x huser hpw)
  · rw [hnone] at huser
    cases huser

end Steps

section Requests

variable {i : Nat} {op : AuthOp} {m : SessionNote} {α β : Type}

/-- The note after a call: `note` of the answer, or nothing if the request ends. -/
def After (P : α → Prop) (note : α → SessionNote) (r : Except SessionError α) (m : SessionNote) :
    Prop :=
  match r with
  | .ok a => P a ∧ m = note a
  | .error _ => m = .idle

/-- One call. -/
theorem attempt_respects {c : AuthCmd} {f : c.Reply → Option α} (P : α → Prop)
    (note : α → SessionNote) (hobl : SuitsSession op c m)
    (hstep : ∀ s μ ok, CutOff s μ → μ i = m → CallTimely i op c ok s μ →
      match f (c.sem ok s).2 with
      | some a => P a ∧ CutOff (c.sem ok s).1 (Function.update μ i (note a))
      | none => CutOff (c.sem ok s).1 (Function.update μ i .idle)) :
    Respects i op (After P note) (attempt c f) m := by
  refine ⟨hobl, ?_⟩
  intro s μ ok hI hi hcond
  have h := hstep s μ ok hI hi hcond
  cases hr : f (c.sem ok s).2 with
  | none =>
      rw [hr] at h
      refine ⟨.idle, h, ?_⟩
      simp only [authSystem, hr]
      rfl
  | some a =>
      rw [hr] at h
      refine ⟨note a, h.2, ?_⟩
      simp only [authSystem, hr]
      exact ⟨h.1, rfl⟩

theorem okOr_bind {a : α} {e : SessionError} {Q : Except SessionError β → SessionNote → Prop}
    {f : α → AuthHandler β} (h : Respects i op Q (f a) m) :
    Respects i op Q (okOr (some a) e >>= f) m := h

theorem failIf_bind {c : Bool} {e : SessionError} {Q : Except SessionError β → SessionNote → Prop}
    {f : Unit → AuthHandler β} (hfail : c = true → Q (.error e) m)
    (hok : c = false → Respects i op Q (f ()) m) : Respects i op Q (failIf c e >>= f) m := by
  cases c with
  | false =>
      exact hok rfl
  | true =>
      exact hfail rfl

theorem suitsSession_of_notKept {c : AuthCmd} (h : NotKept m) : SuitsSession op c m :=
  fun sid id hm => absurd hm (h sid id)

theorem notKept_idle : NotKept .idle := fun _ _ h => by cases h

theorem notKept_row {id : Uuid} {pw : Int} : NotKept (.row id pw) := fun _ _ h => by cases h

theorem notKept_loaded {sid : SessionId} {id : Uuid} {pw : Option Int} :
    NotKept (.loaded sid id pw) := fun _ _ h => by cases h

theorem suits_kept {c : AuthCmd} {sid : SessionId} {id : Uuid}
    (hop : op.keepsSession = true) (hc : c.actsFor = some id) :
    SuitsSession op c (.kept sid id) := by
  rintro _ _ ⟨⟩
  simp [underWay, hop, hc]

/-- One call that erases sessions at most. -/
theorem attempt_erases {c : AuthCmd} {f : c.Reply → Option α} (hc : c.erasesOnly = true)
    (hobl : SuitsSession op c m) :
    Respects i op (After (fun _ => True) fun _ => m) (attempt c f) m := by
  refine attempt_respects _ _ hobl ?_
  intro s μ ok hI hi _
  obtain ⟨haccounts, hcut, hstore⟩ := c.sem_of_erasesOnly hc ok s
  have hm : NoteHolds s m := by
    rw [← hi]
    exact hI.notes i
  cases f (c.sem ok s).2 with
  | some a =>
      exact ⟨trivial, hI.erase haccounts hcut hstore hm⟩
  | none =>
      exact hI.erase haccounts hcut hstore trivial

/-- The note of a request that has passed the extractor. -/
def passed (op : AuthOp) (sid : SessionId) (id : Uuid) : SessionNote :=
  if op.keepsSession then .kept sid id else .idle

/-- The note of a request that has loaded its session. -/
def loadedNote (sid : SessionId) (session : Session) : SessionNote :=
  match session.userId with
  | some id => .loaded sid id session.pwChangedAt
  | none => .idle

/-- The note of a request that has read the row of its user. -/
def checkedNote (op : AuthOp) (sid : SessionId) (session : Session) (found : Option Account) :
    SessionNote :=
  match found with
  | some user =>
      if user.status != .active then .idle
      else if session.pwChangedAt != some user.watermark then .idle
      else passed op sid user.id
  | none => .idle

theorem suits_passed {c : AuthCmd} {sid : SessionId} {id : Uuid} (hc : c.actsFor = some id) :
    SuitsSession op c (passed op sid id) := by
  intro sid' id' hm
  unfold passed at hm
  cases hkeeps : op.keepsSession with
  | true =>
      rw [hkeeps] at hm
      exact suits_kept hkeeps hc _ _ hm
  | false =>
      rw [hkeeps] at hm
      cases hm

theorem extractUser_respects (sid : SessionId) :
    Respects i op
      (After (fun r => r.2.userId = some r.1.id) fun r => passed op sid r.1.id)
      (extractUser sid) .idle := by
  have hload : Respects i op (After (fun _ => True) (loadedNote sid))
      (attempt (.load sid) id) .idle := by
    refine attempt_respects _ _ (suitsSession_of_notKept notKept_idle) ?_
    intro s μ ok hI _ _
    cases ok with
    | false =>
        exact hI.note trivial
    | true =>
        refine ⟨trivial, hI.note ?_⟩
        unfold loadedNote
        cases huser : (s.session sid).userId with
        | none =>
            trivial
        | some id =>
            intro x hx
            exact hI.stored sid id x huser hx
  have hfind : ∀ session : Session, ∀ id, session.userId = some id →
      Respects i op
        (After (fun found => ∀ user, found = some user → user.id = id) (checkedNote op sid session))
        (attempt (.findById id) (fun r => r)) (.loaded sid id session.pwChangedAt) := by
    intro session id huser
    refine attempt_respects _ _ (suitsSession_of_notKept notKept_loaded) ?_
    intro s μ ok hI hi _
    cases ok with
    | false =>
        exact hI.note trivial
    | true =>
        refine ⟨fun user hfound => findById_id hfound, hI.note ?_⟩
        have hloaded := hI.notes i
        rw [hi] at hloaded
        unfold checkedNote
        cases hfound : findById s.accounts id with
        | none =>
            trivial
        | some user =>
            dsimp only
            split
            · trivial
            · split
              · trivial
              · rename_i hpw
                unfold passed
                split
                · have hpw : session.pwChangedAt = some user.watermark := by
                    simpa using hpw
                  rw [findById_id hfound]
                  refine Bool.eq_false_iff.mpr fun hcut => ?_
                  have hlt := (hloaded user.watermark hpw).2 user hfound hcut
                  omega
                · trivial
  have hseen : ∀ id, Respects i op (After (fun _ => True) fun _ => passed op sid id)
      (attempt (.upsertSeen sid id) some) (passed op sid id) := by
    intro id
    exact attempt_erases rfl (suits_passed rfl)
  unfold extractUser
  refine hload.attempt_bind ?_ fun _ _ h => h
  rintro session m ⟨-, rfl⟩
  cases huser : session.userId with
  | none =>
      simp only [loadedNote, huser]
      rfl
  | some id =>
      simp only [loadedNote, huser]
      refine (hfind session id huser).attempt_bind ?_ fun _ _ h => h
      rintro found m ⟨hid, rfl⟩
      cases found with
      | none =>
          rfl
      | some user =>
          have huser : session.userId = some user.id := by
            rw [huser, hid user rfl]
          refine okOr_bind <| failIf_bind ?_ fun hactive => failIf_bind ?_ fun hpw => ?_
          · intro hactive
            simp only [checkedNote, hactive, if_true]
            rfl
          · intro hpw
            simp only [checkedNote, hactive, hpw, if_true]
            rfl
          · simp only [checkedNote, hactive, hpw]
            refine (hseen user.id).attempt_bind ?_ fun _ _ h => h
            rintro _ m ⟨-, rfl⟩
            exact ⟨huser, rfl⟩

/-- A request ends without keeping a session. -/
def Released (_ : Except SessionError α) (m : SessionNote) : Prop := NotKept m

theorem Released.of_idle {r : Except SessionError α} (h : m = .idle) : Released r m := by
  rw [h]
  exact notKept_idle

/-- The last call of a request. -/
theorem attempt_last {c : AuthCmd} {f : c.Reply → Option α} (hc : c.erasesOnly = true)
    (hm : NotKept m) : Respects i op Released (attempt c f) m := by
  refine (attempt_erases hc (suitsSession_of_notKept hm)).mono ?_
  rintro (e | a) m' h
  · exact Released.of_idle h
  · rw [Released, h.2]
    exact hm

theorem login_respects (sid : SessionId) (userId : Uuid) :
    Respects i op Released (login sid userId) .idle := by
  have hfind : Respects i op
      (After (fun _ => True) fun found : Option Account =>
        match found with
        | some user => .row user.id user.watermark
        | none => .idle)
      (attempt (.findById userId) (fun r => r)) .idle := by
    refine attempt_respects _ _ (suitsSession_of_notKept notKept_idle) ?_
    intro s μ ok hI _ _
    cases ok with
    | false =>
        exact hI.note trivial
    | true =>
        refine ⟨trivial, hI.note ?_⟩
        cases hfound : findById s.accounts userId with
        | none =>
            trivial
        | some user =>
            intro a ha
            rw [findById_id hfound, hfound] at ha
            cases ha
            exact Int.le_refl _
  have hsave : ∀ (user : Account) (session : Session), session.userId = some user.id →
      session.pwChangedAt = some user.watermark →
      Respects i op Released (attempt (.save .login sid session) id)
        (.row user.id user.watermark) := by
    intro user session huser hpw
    refine (attempt_respects (fun _ => True) (fun _ => .idle)
      (suitsSession_of_notKept notKept_row) ?_).mono ?_
    · intro s μ ok hI hi _
      have hrow : UpTo s user.id user.watermark := by
        have h := hI.notes i
        rwa [hi] at h
      cases ok with
      | false =>
          exact hI.note trivial
      | true =>
          refine ⟨trivial, hI.save ?_⟩
          intro id x hid hx
          rw [huser] at hid
          rw [hpw] at hx
          cases hid
          cases hx
          have haccounts : (s.save .login sid session).accounts = s.accounts := rfl
          refine ⟨upTo_of_accounts haccounts hrow, ?_⟩
          intro a _ hc
          simp [AuthState.save, huser] at hc
    · rintro (e | a) m' h
      · exact Released.of_idle h
      · exact Released.of_idle h.2
  unfold login
  refine Follows.attempt_bind hfind ?_ fun _ _ h => Released.of_idle h
  rintro found m ⟨-, rfl⟩
  cases found with
  | none =>
      exact notKept_idle
  | some user =>
      refine okOr_bind <| failIf_bind (fun _ => notKept_row) fun _ => ?_
      refine (attempt_erases rfl (suitsSession_of_notKept notKept_row)).attempt_bind ?_
        fun _ _ h => Released.of_idle h
      rintro session m ⟨-, rfl⟩
      refine (attempt_erases rfl (suitsSession_of_notKept notKept_row)).attempt_bind ?_
        fun _ _ h => Released.of_idle h
      rintro _ m ⟨-, rfl⟩
      exact hsave user _ rfl rfl

theorem adminRevokeSessions_respects (sid : SessionId) (targetId : Uuid) (now : Int)
    (hop : op.keepsSession = false) :
    Respects i op Released (adminRevokeSessions sid targetId now) .idle := by
  have hkill : ∀ id, Respects i op (After (fun _ => True) fun _ => .idle)
      (attempt (.killAllSessions none id now) (fun r => r)) .idle := by
    intro id
    refine attempt_respects _ _ (suitsSession_of_notKept notKept_idle) ?_
    intro s μ ok hI _ hcond
    cases ok with
    | false =>
        exact hI.note trivial
    | true =>
        obtain ⟨hlater, hothers⟩ := hcond rfl id now rfl
        exact ⟨trivial, hI.kill hlater hothers trivial⟩
  unfold adminRevokeSessions
  refine (extractUser_respects sid).attempt_bind ?_ fun _ _ h => Released.of_idle h
  rintro ⟨actor, session⟩ m ⟨-, rfl⟩
  simp only [passed, hop]
  refine failIf_bind (fun _ => notKept_idle) fun _ => ?_
  refine (attempt_erases rfl (suitsSession_of_notKept notKept_idle)).attempt_bind ?_
    fun _ _ h => Released.of_idle h
  rintro found m ⟨-, rfl⟩
  cases found with
  | none =>
      exact notKept_idle
  | some target =>
      refine okOr_bind <| (hkill target.id).attempt_bind ?_ fun _ _ h => Released.of_idle h
      rintro n m ⟨-, rfl⟩
      exact failIf_bind (fun _ => notKept_idle) fun _ => attempt_last rfl notKept_idle

/-- The caller keeps its own session over its own sign-out. -/
theorem revokeOtherSessions_respects (sid : SessionId) (now : Int)
    (hop : op.keepsSession = true) :
    Respects i op Released (revokeOtherSessions sid now) .idle := by
  have hkill : ∀ id, Respects i op (After (fun _ => True) fun _ => .kept sid id)
      (attempt (.killAllSessions (some sid) id now) (fun r => r)) (.kept sid id) := by
    intro id
    refine attempt_respects _ _ (suits_kept hop rfl) ?_
    intro s μ ok hI hi hcond
    cases ok with
    | false =>
        exact hI.note trivial
    | true =>
        obtain ⟨hlater, hothers⟩ := hcond rfl id now rfl
        have hkept := hI.notes i
        rw [hi] at hkept
        have hcut : s.cut id sid = false := hkept
        refine ⟨trivial, hI.kill hlater hothers ?_⟩
        simp [NoteHolds, AuthState.killAllSessions, hcut]
  have hfind : ∀ id, Respects i op
      (After (fun _ => True) fun found : Option Int =>
        match found with
        | some w => .loaded sid id (some (w / 1000000))
        | none => .idle)
      (attempt (.findPasswordChangedAt id) (fun r => r)) (.kept sid id) := by
    intro id
    refine attempt_respects _ _ (suits_kept hop rfl) ?_
    intro s μ ok hI hi _
    have hkept := hI.notes i
    rw [hi] at hkept
    cases ok with
    | false =>
        exact hI.note trivial
    | true =>
        refine ⟨trivial, hI.note ?_⟩
        cases hfound : findById s.accounts id with
        | none =>
            trivial
        | some user =>
            rintro x ⟨⟩
            have hcut : s.cut id sid = false := hkept
            refine ⟨?_, fun a _ hc => by simp [hcut] at hc⟩
            intro a ha
            rw [hfound] at ha
            cases ha
            exact Int.le_refl _
  have hsave : ∀ (user : Account) (session : Session) (w : Int),
      session.userId = some user.id → session.pwChangedAt = some w →
      Respects i op Released (attempt (.save .revokeOtherSessions sid session) id)
        (.loaded sid user.id (some w)) := by
    intro user session w huser hpw
    refine (attempt_respects (fun _ => True) (fun _ => .idle)
      (suitsSession_of_notKept notKept_loaded) ?_).mono ?_
    · intro s μ ok hI hi _
      have hloaded := hI.notes i
      rw [hi] at hloaded
      cases ok with
      | false =>
          exact hI.note trivial
      | true =>
          refine ⟨trivial, hI.save ?_⟩
          intro id x hid hx
          rw [huser] at hid
          rw [hpw] at hx
          cases hid
          cases hx
          have haccounts : (s.save .revokeOtherSessions sid session).accounts = s.accounts := rfl
          refine dated_of_cut haccounts ?_ (hloaded w rfl)
          intro id other hc
          simpa [AuthState.save] using hc
    · rintro (e | a) m' h
      · exact Released.of_idle h
      · exact Released.of_idle h.2
  unfold revokeOtherSessions
  refine (extractUser_respects sid).attempt_bind ?_ fun _ _ h => Released.of_idle h
  rintro ⟨user, session⟩ m ⟨huser, rfl⟩
  simp only [passed, hop, if_true]
  refine (hkill user.id).attempt_bind ?_ fun _ _ h => Released.of_idle h
  rintro _ m ⟨-, rfl⟩
  refine (hfind user.id).attempt_bind ?_ fun _ _ h => Released.of_idle h
  rintro watermark m ⟨-, rfl⟩
  cases watermark with
  | none =>
      refine (attempt_erases rfl (suitsSession_of_notKept notKept_idle)).attempt_bind ?_
        fun _ _ h => Released.of_idle h
      rintro _ m ⟨-, rfl⟩
      refine (attempt_erases rfl (suitsSession_of_notKept notKept_idle)).attempt_bind ?_
        fun _ _ h => Released.of_idle h
      rintro _ m ⟨-, rfl⟩
      exact notKept_idle
  | some w =>
      refine (attempt_erases rfl (suitsSession_of_notKept notKept_loaded)).attempt_bind ?_
        fun _ _ h => Released.of_idle h
      rintro _ m ⟨-, rfl⟩
      refine (attempt_erases rfl (suitsSession_of_notKept notKept_loaded)).attempt_bind ?_
        fun _ _ h => Released.of_idle h
      rintro _ m ⟨-, rfl⟩
      exact hsave user _ _ huser rfl

theorem handler_respects (op : AuthOp) : Respects i op Released op.handler .idle := by
  cases op with
  | login sid userId =>
      exact login_respects sid userId
  | logout sid =>
      exact attempt_last rfl notKept_idle
  | request sid =>
      refine (extractUser_respects sid).attempt_bind ?_ fun _ _ h => Released.of_idle h
      rintro _ m ⟨-, rfl⟩
      exact notKept_idle
  | revokeOtherSessions sid now =>
      exact revokeOtherSessions_respects sid now rfl
  | adminRevokeSessions sid targetId now =>
      exact adminRevokeSessions_respects sid targetId now rfl

end Requests

section Runs

variable {p : AuthPool} {μ : Nat → SessionNote}

/-- The notes of the pool. -/
abbrev NotedAuth (p : AuthPool) (μ : Nat → SessionNote) : Prop :=
  Noted authSystem CutOff SuitsSession CallTimely (fun _ r m => Released r m) .idle p μ

/-- The condition on the next calls is one on the notes. -/
theorem callTimely_of_timely (h : NotedAuth p μ) {i : Nat} {ok : Bool} {op : AuthOp} {c : AuthCmd}
    (hnext : nextCall p i = some (op, c)) (htimely : Timely p (.step i ok)) :
    CallTimely i op c ok p.shared μ := by
  intro hok id now hkill
  have hcond := htimely hok
  rw [hnext, hkill] at hcond
  refine ⟨hcond.1, ?_⟩
  intro j hji sid hkept
  cases hj : nextCall p j with
  | some call =>
      obtain ⟨op', c'⟩ := call
      have hunder := h.suits hj sid id hkept
      have hidle := hcond.2 j (lt_of_nextCall hj) hji
      rw [hj, hunder] at hidle
      cases hidle
  | none =>
      rcases h.settled hj with ⟨_, _, hreleased⟩ | hidle
      · exact hreleased sid id hkept
      · rw [hidle] at hkept
        cases hkept

theorem notedAuth_step (h : NotedAuth p μ) {e : PoolEvent AuthOp Unit} (he : Timely p e) :
    ∃ μ', NotedAuth (poolStep authSystem p e) μ' := by
  refine noted_step (fun i op _ => handler_respects op) h ?_ ?_ ?_
  · rintro i ok op c rfl hnext
    exact callTimely_of_timely h hnext he
  · intro i op q _ _
    exact h.inv.note trivial
  · intro _ _
    exact ⟨h.inv.stored, fun _ => trivial⟩

/-- A session with an old watermark is refused. -/
theorem CutOff.signedOut {s : AuthState} (h : CutOff s μ) : SignedOut s := by
  rintro u sid hcut ⟨user, hcurrent, rfl⟩
  obtain ⟨huser, hfound, hpw⟩ := currentUser_ok hcurrent
  have hlt := (h.stored sid user.id user.watermark huser hpw).2 user hfound hcut
  omega

end Runs

/-- No session is stored. -/
def noSessions (accounts : List Account) : AuthState where
  accounts := accounts
  store _ := none
  seen := []
  cut _ _ := false

theorem cutOff_noSessions (accounts : List Account) :
    CutOff (noSessions accounts) fun _ => .idle where
  stored := by
    intro sid id x huser _
    cases huser
  notes _ := trivial

/--
In every run in which each sign-out falls in a later second than the stored watermark of its
user, while no other `revoke_other_sessions` of that user is between the extractor and the
read of the new watermark, a session that was the user's is refused until it logs in again.
-/
theorem sign_out_effective (accounts : List Account) (es : List (PoolEvent AuthOp Unit))
    (hrun : Along (poolStep authSystem) Timely (authIdle (noSessions accounts)) es) :
    Always (poolStep authSystem) (fun p => SignedOut p.shared) (authIdle (noSessions accounts))
      es := by
  refine always_of_along (fun p => ∃ μ, NotedAuth p μ) ?_ ?_ ?_ hrun
  · rintro p e ⟨μ, hp⟩ he
    exact notedAuth_step hp he
  · rintro p ⟨μ, hp⟩
    exact hp.inv.signedOut
  · exact ⟨_, noted_init (cutOff_noSessions accounts)⟩

/-- An admin, and a user whose watermark is 100.2 seconds. -/
def sampleMembers : List Account :=
  [⟨1, "admin@example.org", some "g1", .admin, .active, false, 0⟩,
   ⟨3, "user@example.org", some "g3", .user, .active, false, 100200000⟩]

/-- Both log in, and the admin signs the user out. -/
def sampleSignOut (now : Int) : List (PoolEvent AuthOp Unit) :=
  PoolEvent.spawn (AuthOp.login 1 1) :: List.replicate 4 (PoolEvent.step 0 true) ++
    PoolEvent.spawn (AuthOp.login 3 3) :: List.replicate 4 (PoolEvent.step 1 true) ++
      PoolEvent.spawn (AuthOp.adminRevokeSessions 1 3 now) ::
        List.replicate 6 (PoolEvent.step 2 true)

theorem sign_out_effective_sample :
    let p := runEvents (poolStep authSystem) (authIdle (noSessions sampleMembers))
      (sampleSignOut 101000000)
    p.shared.cut 3 3 = true ∧ ¬ p.shared.Accepts 3 3 := by
  have hcut : (runEvents (poolStep authSystem) (authIdle (noSessions sampleMembers))
      (sampleSignOut 101000000)).shared.cut 3 3 = true := by decide
  exact ⟨hcut, (sign_out_effective sampleMembers (sampleSignOut 101000000)
    (by decide)).last 3 3 hcut⟩

/-- The user logs in on two sessions. -/
def sampleTwoSessions : List (PoolEvent AuthOp Unit) :=
  PoolEvent.spawn (AuthOp.login 3 3) :: List.replicate 4 (PoolEvent.step 0 true) ++
    PoolEvent.spawn (AuthOp.login 4 3) :: List.replicate 4 (PoolEvent.step 1 true)

/-- A sign-out 0.7 seconds after the login's watermark, in the same second, leaves the session
alive; and a `revoke_other_sessions` of session 3 that a sign-out by session 4 overtakes
after its extractor keeps session 3. -/
theorem sign_out_leaves_session :
    let same := runEvents (poolStep authSystem) (authIdle (noSessions sampleMembers))
      (sampleSignOut 100900000)
    let overtaken := runEvents (poolStep authSystem) (authIdle (noSessions sampleMembers))
      (sampleTwoSessions ++
        PoolEvent.spawn (AuthOp.revokeOtherSessions 3 102000000) ::
          List.replicate 3 (PoolEvent.step 2 true) ++
            PoolEvent.spawn (AuthOp.revokeOtherSessions 4 101000000) ::
              List.replicate 8 (PoolEvent.step 3 true) ++
                List.replicate 5 (PoolEvent.step 2 true))
    ¬ SignedOut same.shared ∧ ¬ SignedOut overtaken.shared := by
  refine ⟨fun h => h 3 3 (by decide) ?_, fun h => h 3 3 (by decide) ?_⟩
  · exact ⟨⟨3, "user@example.org", some "g3", .user, .active, false, 100900000⟩,
      by decide, rfl⟩
  · exact ⟨⟨3, "user@example.org", some "g3", .user, .active, false, 102000000⟩,
      by decide, rfl⟩

end Sessions

end Api
end ZeroVpn
