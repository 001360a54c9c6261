import ZeroVpn.Api.SignOut

/-!
# The list of active sessions

`upsert_seen`, `list_active_for_user`, `revoke_by_surrogate`,
`revoke_all_except` and `purge_dangling` of `repos/user_sessions.rs`, as the
extractor `CurrentUser`, `revoke_session` and `revoke_other_sessions` of
`routes/me.rs` use them, next to the requests of `Sessions` that change the
identity of a session.

The extractor writes a row for a session when it sees it first, and afterwards
refreshes its time and address only.  The owner of the row is therefore the user
whom the session had then: a login as somebody else, an impersonation or its end
leaves it.

A request is one step; it carries the accounts that its lookups see.  A session
that is not in the store is saved under a fresh identifier.
-/

namespace ZeroVpn

open Library

namespace Api
namespace Sessions

open Db (Uuid)

/-- A row of `user_sessions`; the times are in seconds. -/
structure UserSessionRow where
  id : Uuid
  sessionId : SessionId
  userId : Uuid
  ip : Option String
  userAgent : Option String
  createdAt : Int
  lastSeenAt : Int
  deriving DecidableEq, Repr

structure SessionTables where
  /-- `tower_sessions.session`, without those that have expired. -/
  store : SessionId → Option Session
  rows : List UserSessionRow

/-- What a request brings along besides its cookie. -/
structure Caller where
  sid : SessionId
  /-- The identifier of a new session. -/
  freshSid : SessionId
  /-- `Uuid::now_v7()`. -/
  surrogate : Uuid
  ip : Option String
  userAgent : Option String
  now : Int
  deriving DecidableEq, Repr

namespace SessionTables

def session (s : SessionTables) (sid : SessionId) : Session := (s.store sid).getD .empty

/-- `upsert_seen`. -/
def upsertSeen (s : SessionTables) (caller : Caller) (userId : Uuid) : SessionTables :=
  if s.rows.any (fun r => r.sessionId == caller.sid) then
    { s with
      rows := s.rows.map fun r =>
        if r.sessionId = caller.sid ∧ r.lastSeenAt < caller.now - 60 then
          { r with lastSeenAt := caller.now, ip := caller.ip }
        else r }
  else
    { s with
      rows := s.rows ++
        [{ id := caller.surrogate
           sessionId := caller.sid
           userId := userId
           ip := caller.ip
           userAgent := caller.userAgent
           createdAt := caller.now
           lastSeenAt := caller.now }] }

/-- `list_active_for_user`, without its order. -/
def listActiveForUser (s : SessionTables) (userId : Uuid) : List UserSessionRow :=
  s.rows.filter fun r => r.userId == userId && (s.store r.sessionId).isSome

/-- `revoke_by_surrogate`. -/
def revokeBySurrogate (s : SessionTables) (userId surrogate : Uuid) : SessionTables :=
  match s.rows.find? fun r => r.id == surrogate && r.userId == userId with
  | none => s
  | some row =>
      { store := Function.update s.store row.sessionId none
        rows := s.rows.filter fun r => !(r.id == surrogate && r.userId == userId) }

/-- `revoke_all_except`. -/
def revokeAllExcept (s : SessionTables) (userId : Uuid) (keep : SessionId) : SessionTables where
  store sid :=
    if s.rows.any fun r => r.userId == userId && r.sessionId != keep && r.sessionId == sid then none
    else s.store sid
  rows := s.rows.filter fun r => !(r.userId == userId && r.sessionId != keep)

/-- `purge_dangling`. -/
def purgeDangling (s : SessionTables) : SessionTables :=
  { s with rows := s.rows.filter fun r => (s.store r.sessionId).isSome }

/-- A session is saved under its identifier, or a new one. -/
def savedSid (s : SessionTables) (caller : Caller) : SessionId :=
  if (s.store caller.sid).isSome then caller.sid else caller.freshSid

def save (s : SessionTables) (caller : Caller) (session : Session) : SessionTables :=
  { s with store := Function.update s.store (s.savedSid caller) (some session) }

end SessionTables

/-- The requests. -/
inductive TrackedRequest where
  /-- A login, an impersonation, its end or a logout. -/
  | identity (r : Request)
  /-- Any other request behind `CurrentUser`. -/
  | visit (accounts : List Account)
  | revokeSession (accounts : List Account) (surrogate : Uuid)
  /-- With the watermark that is read after the sign-out. -/
  | revokeOtherSessions (accounts : List Account) (watermark : Option Int)
  deriving DecidableEq

inductive TrackedStep where
  | request (caller : Caller) (r : TrackedRequest)
  /-- The session expires. -/
  | expire (sid : SessionId)
  /-- The retention sweep. -/
  | purge
  /-- `ON DELETE CASCADE`. -/
  | userDeleted (userId : Uuid)
  deriving DecidableEq

/-- The accounts that the extractor of a request reads, if it has one. -/
def TrackedRequest.extractor : TrackedRequest → Option (List Account)
  | identity (.impersonateUser r) => some r.accounts
  | identity _ => none
  | visit accounts | revokeSession accounts _ | revokeOtherSessions accounts _ => some accounts

/-- The user whom the extractor of a request finds. -/
def TrackedRequest.user (r : TrackedRequest) (s : SessionTables) (sid : SessionId) :
    Option Account :=
  r.extractor.bind fun accounts => (currentUser accounts (s.session sid)).toOption

/-- The tables after the extractor. -/
def extracted (s : SessionTables) (caller : Caller) (r : TrackedRequest) : SessionTables :=
  match r.user s caller.sid with
  | some user => s.upsertSeen caller user.id
  | none => s

/-- The session that a request saves. -/
def TrackedRequest.saves (r : TrackedRequest) (s : SessionTables) (sid : SessionId) :
    Option Session :=
  match r with
  | identity (.googleCallback r) => (googleCallback r (s.session sid)).toOption.map Prod.fst
  | identity (.googleVerifyTotp r) => (googleVerifyTotp r (s.session sid)).toOption.map Prod.fst
  | identity (.impersonateUser r) => (impersonateUser r (s.session sid)).toOption
  | identity (.stopImpersonation saved) => (stopImpersonation saved (s.session sid)).toOption
  | identity .logout | visit _ | revokeSession .. => none
  | revokeOtherSessions accounts watermark =>
      match currentUser accounts (s.session sid) with
      | .ok _ => watermark.map fun w => { s.session sid with pwChangedAt := some (w / 1000000) }
      | .error _ => none

/-- What a request removes. -/
def TrackedRequest.removes (r : TrackedRequest) (s : SessionTables) (caller : Caller)
    (user : Option Account) : SessionTables :=
  match r, user with
  | identity .logout, _ => { s with store := Function.update s.store caller.sid none }
  | revokeSession _ surrogate, some u => s.revokeBySurrogate u.id surrogate
  | revokeOtherSessions .., some u => s.revokeAllExcept u.id caller.sid
  | _, _ => s

/-- The tables before the session is saved. -/
def unsaved (s : SessionTables) (caller : Caller) (r : TrackedRequest) : SessionTables :=
  r.removes (extracted s caller r) caller (r.user s caller.sid)

/-- A request: the extractor, the rows it removes, the session it saves. -/
def serveTracked (s : SessionTables) (caller : Caller) (r : TrackedRequest) : SessionTables :=
  match r.saves s caller.sid with
  | some session => (unsaved s caller r).save caller session
  | none => unsaved s caller r

def trackedStep (s : SessionTables) : TrackedStep → SessionTables
  | .request caller r => serveTracked s caller r
  | .expire sid => { s with store := Function.update s.store sid none }
  | .purge => s.purgeDangling
  | .userDeleted userId => { s with rows := s.rows.filter fun r => r.userId != userId }

/-- Every row of a stored session belongs to the user of the session. -/
def Tracks (s : SessionTables) : Prop :=
  ∀ row ∈ s.rows, ∀ session, s.store row.sessionId = some session →
    session.userId = some row.userId

/-- The bookkeeping of a step. -/
structure Bookkept (s : SessionTables) (e : TrackedStep) : Prop where
  /-- After an authenticated request the row of the session has its user. -/
  seen : ∀ caller accounts user, e = .request caller (.visit accounts) →
    currentUser accounts (s.session caller.sid) = .ok user →
    ∃ row ∈ (trackedStep s e).rows, row.sessionId = caller.sid ∧
      ((trackedStep s e).session caller.sid).userId = some row.userId
  /-- Of the sessions with a row, the list of a user shows those that act as the user. -/
  listed : ∀ u, ∀ row ∈ (trackedStep s e).rows,
    ((trackedStep s e).store row.sessionId).isSome = true →
    (row ∈ (trackedStep s e).listActiveForUser u ↔
      ((trackedStep s e).session row.sessionId).userId = some u)
  /-- A revocation removes sessions of its user only. -/
  revoked : ∀ caller r user, e = .request caller r → r ≠ .identity .logout →
    r.user s caller.sid = some user → ∀ sid, (s.store sid).isSome = true →
      (trackedStep s e).store sid = none → (s.session sid).userId = some user.id

/-- No request puts a user into a session that has the row of another one. -/
def KeepsOwner (s : SessionTables) : TrackedStep → Prop
  | .request caller r => ∀ session, r.saves s caller.sid = some session →
      (∃ old, (unsaved s caller r).store ((unsaved s caller r).savedSid caller) = some old ∧
        session.userId = old.userId) ∨
      ∀ row ∈ (unsaved s caller r).rows,
        row.sessionId = (unsaved s caller r).savedSid caller → session.userId = some row.userId
  | _ => True

section Tracks

variable {s : SessionTables} {caller : Caller}

/-- The extractor writes a row of the user of the session. -/
theorem Tracks.upsertSeen (h : Tracks s) {u : Uuid}
    (hu : (s.session caller.sid).userId = some u) : Tracks (s.upsertSeen caller u) := by
  unfold SessionTables.upsertSeen
  split
  · intro row hrow session hsession
    obtain ⟨r, hr, rfl⟩ := List.mem_map.mp hrow
    split at hsession
    · rename_i hc
      rw [if_pos hc]
      exact h r hr session hsession
    · rename_i hc
      rw [if_neg hc]
      exact h r hr session hsession
  · intro row hrow session hsession
    rcases List.mem_append.mp hrow with hold | hnew
    · exact h row hold session hsession
    · rw [List.mem_singleton.mp hnew] at hsession ⊢
      have hstored : s.session caller.sid = session := by
        unfold SessionTables.session
        rw [show s.store caller.sid = some session from hsession]
        rfl
      rwa [hstored] at hu

/-- Fewer rows and fewer sessions. -/
theorem Tracks.mono (h : Tracks s) {t : SessionTables} (hrows : ∀ row ∈ t.rows, row ∈ s.rows)
    (hstore : ∀ sid session, t.store sid = some session → s.store sid = some session) :
    Tracks t := fun row hrow session hsession =>
  h row (hrows row hrow) session (hstore _ session hsession)

theorem store_update_none {store : SessionId → Option Session} {sid sid' : SessionId}
    {session : Session} (h : Function.update store sid none sid' = some session) :
    store sid' = some session := by
  by_cases hsid : sid' = sid
  · rw [hsid, Function.update_self] at h
    cases h
  · rwa [Function.update_of_ne hsid] at h

theorem user_session {r : TrackedRequest} {user : Account}
    (h : r.user s caller.sid = some user) : (s.session caller.sid).userId = some user.id := by
  unfold TrackedRequest.user at h
  obtain ⟨accounts, -, h⟩ := Option.bind_eq_some_iff.mp h
  cases huser : currentUser accounts (s.session caller.sid) with
  | error e =>
      rw [huser] at h
      cases h
  | ok found =>
      rw [huser] at h
      injection h with h
      rw [← h]
      exact (currentUser_ok huser).1

theorem Tracks.extracted (h : Tracks s) (r : TrackedRequest) :
    Tracks (extracted s caller r) := by
  unfold Sessions.extracted
  split
  · rename_i user huser
    exact h.upsertSeen (user_session huser)
  · exact h

theorem store_upsertSeen (u : Uuid) : (s.upsertSeen caller u).store = s.store := by
  unfold SessionTables.upsertSeen
  split <;> rfl

theorem store_extracted (r : TrackedRequest) : (extracted s caller r).store = s.store := by
  unfold Sessions.extracted
  split
  · exact store_upsertSeen _
  · rfl

theorem Tracks.revokeBySurrogate (h : Tracks s) (u surrogate : Uuid) :
    Tracks (s.revokeBySurrogate u surrogate) := by
  unfold SessionTables.revokeBySurrogate
  split
  · exact h
  · exact h.mono (fun row hrow => (List.mem_filter.mp hrow).1)
      fun sid session hstore => store_update_none hstore

theorem Tracks.revokeAllExcept (h : Tracks s) (u : Uuid) (keep : SessionId) :
    Tracks (s.revokeAllExcept u keep) := by
  refine h.mono (fun row hrow => (List.mem_filter.mp hrow).1) fun sid session hstore => ?_
  simp only [SessionTables.revokeAllExcept] at hstore
  split at hstore
  · cases hstore
  · exact hstore

theorem Tracks.removes (h : Tracks s) (r : TrackedRequest) (user : Option Account) :
    Tracks (r.removes s caller user) := by
  unfold TrackedRequest.removes
  split
  · exact h.mono (fun row hrow => hrow) fun sid session hstore => store_update_none hstore
  · exact h.revokeBySurrogate _ _
  · exact h.revokeAllExcept _ _
  · exact h

theorem Tracks.unsaved (h : Tracks s) (r : TrackedRequest) : Tracks (unsaved s caller r) :=
  (h.extracted r).removes r _

/-- Saving a session whose row, if it has one, belongs to its user. -/
theorem Tracks.save (h : Tracks s) {session : Session}
    (hsession : (∃ old, s.store (s.savedSid caller) = some old ∧ session.userId = old.userId) ∨
      ∀ row ∈ s.rows, row.sessionId = s.savedSid caller → session.userId = some row.userId) :
    Tracks (s.save caller session) := by
  intro row hrow stored hstored
  by_cases hsid : row.sessionId = s.savedSid caller
  · have hsame : stored = session := by
      simp only [SessionTables.save, hsid, Function.update_self, Option.some.injEq] at hstored
      exact hstored.symm
    rw [hsame]
    rcases hsession with ⟨old, hold, huser⟩ | hrows
    · rw [huser]
      exact h row hrow old (hsid ▸ hold)
    · exact hrows row hrow hsid
  · simp only [SessionTables.save, Function.update_of_ne hsid] at hstored
    exact h row hrow stored hstored

/-- Every step keeps the rows with the users of their sessions. -/
theorem Tracks.step (h : Tracks s) {e : TrackedStep} (he : KeepsOwner s e) :
    Tracks (trackedStep s e) := by
  cases e with
  | request caller r =>
      simp only [trackedStep, serveTracked]
      split
      · rename_i session hsaves
        exact (h.unsaved r).save (he session hsaves)
      · exact h.unsaved r
  | expire sid =>
      exact h.mono (fun row hrow => hrow) fun sid session hstore => store_update_none hstore
  | purge =>
      exact h.mono (fun row hrow => (List.mem_filter.mp hrow).1) fun sid session hstore => hstore
  | userDeleted u =>
      exact h.mono (fun row hrow => (List.mem_filter.mp hrow).1) fun sid session hstore => hstore

/-- A session that the extractor sees has a row. -/
theorem exists_row_upsertSeen (s : SessionTables) (caller : Caller) (u : Uuid) :
    ∃ row ∈ (s.upsertSeen caller u).rows, row.sessionId = caller.sid := by
  unfold SessionTables.upsertSeen
  split
  · rename_i hany
    obtain ⟨r, hr, hsid⟩ := List.any_eq_true.mp hany
    refine ⟨_, List.mem_map.mpr ⟨r, hr, rfl⟩, ?_⟩
    have hsid' : r.sessionId = caller.sid := by simpa using hsid
    split
    · exact hsid'
    · exact hsid'
  · exact ⟨_, List.mem_append_right _ (List.mem_singleton.mpr rfl), rfl⟩

/-- What a revocation removes belongs to its user. -/
theorem Tracks.revoked (h : Tracks s) {r : TrackedRequest} {user : Account}
    (hr : r ≠ .identity .logout) {sid : SessionId} {session : Session}
    (hstored : s.store sid = some session)
    (hgone : (r.removes s caller (some user)).store sid = none) :
    session.userId = some user.id := by
  unfold TrackedRequest.removes at hgone
  split at hgone
  · exact absurd rfl hr
  · rename_i accounts surrogate u huser
    injection huser with huser
    subst huser
    unfold SessionTables.revokeBySurrogate at hgone
    split at hgone
    · rw [hstored] at hgone
      cases hgone
    · rename_i row hrow
      by_cases hsid : sid = row.sessionId
      · have hmatch := List.find?_some hrow
        simp only [Bool.and_eq_true, beq_iff_eq] at hmatch
        rw [← hmatch.2]
        exact h row (List.mem_of_find?_eq_some hrow) session (hsid ▸ hstored)
      · simp only [Function.update_of_ne hsid] at hgone
        rw [hstored] at hgone
        cases hgone
  · rename_i accounts watermark u huser
    injection huser with huser
    subst huser
    simp only [SessionTables.revokeAllExcept] at hgone
    split at hgone
    · rename_i hany
      obtain ⟨row, hrow, hmatch⟩ := List.any_eq_true.mp hany
      simp only [Bool.and_eq_true, beq_iff_eq] at hmatch
      rw [← hmatch.1.1]
      exact h row hrow session (hmatch.2 ▸ hstored)
    · rw [hstored] at hgone
      cases hgone
  · rw [hstored] at hgone
    cases hgone

/-- A saved session is not gone. -/
theorem unsaved_gone {r : TrackedRequest} {sid : SessionId}
    (h : (serveTracked s caller r).store sid = none) :
    (unsaved s caller r).store sid = none := by
  unfold serveTracked at h
  split at h
  · simp only [SessionTables.save] at h
    by_cases hsid : sid = (Sessions.unsaved s caller r).savedSid caller
    · rw [hsid, Function.update_self] at h
      cases h
    · rwa [Function.update_of_ne hsid] at h
  · exact h

theorem session_of_store {sid : SessionId} {session : Session} (h : s.store sid = some session) :
    s.session sid = session := by
  unfold SessionTables.session
  rw [h]
  rfl

/-- A list in tables that track shows the sessions of the user. -/
theorem Tracks.listed (h : Tracks s) (u : Uuid) {row : UserSessionRow} (hrow : row ∈ s.rows)
    (hstored : (s.store row.sessionId).isSome = true) :
    row ∈ s.listActiveForUser u ↔ (s.session row.sessionId).userId = some u := by
  obtain ⟨session, hsession⟩ := Option.isSome_iff_exists.mp hstored
  rw [session_of_store hsession, h row hrow session hsession]
  simp [SessionTables.listActiveForUser, hrow, hsession]

theorem Tracks.bookkept (h : Tracks s) {e : TrackedStep} (he : KeepsOwner s e) : Bookkept s e where
  seen := by
    rintro caller accounts user rfl huser
    have hfound : (TrackedRequest.visit accounts).user s caller.sid = some user := by
      simp [TrackedRequest.user, TrackedRequest.extractor, huser, Except.toOption]
    have hstep : trackedStep s (.request caller (.visit accounts)) =
        s.upsertSeen caller user.id := by
      simp only [trackedStep, serveTracked, TrackedRequest.saves, Sessions.unsaved,
        TrackedRequest.removes, Sessions.extracted, hfound]
    rw [hstep]
    obtain ⟨row, hrow, hsid⟩ := exists_row_upsertSeen s caller user.id
    refine ⟨row, hrow, hsid, ?_⟩
    have hid := user_session hfound
    obtain ⟨session, hsession⟩ : ∃ session, s.store caller.sid = some session := by
      cases hstore : s.store caller.sid with
      | some session =>
          exact ⟨session, rfl⟩
      | none =>
          simp [SessionTables.session, hstore, Session.empty] at hid
    have htracked := h.upsertSeen hid row hrow session (by
      rw [store_upsertSeen, hsid, hsession])
    rw [session_of_store (show (s.upsertSeen caller user.id).store caller.sid = some session by
      rw [store_upsertSeen, hsession]), htracked]
  listed u row hrow hstored := (h.step he).listed u hrow hstored
  revoked := by
    rintro caller r user rfl hr huser sid hstored hgone
    obtain ⟨session, hsession⟩ := Option.isSome_iff_exists.mp hstored
    have hremoved := unsaved_gone hgone
    unfold Sessions.unsaved at hremoved
    rw [huser] at hremoved
    rw [session_of_store hsession]
    exact (h.extracted r).revoked hr (by rw [store_extracted, hsession]) hremoved

end Tracks

/-- In every run in which no request puts a user into a session that has the row of
another one, the list of sessions follows the identities. -/
theorem session_list_follows_identity (es : List TrackedStep)
    (hes : Along trackedStep KeepsOwner ⟨fun _ => none, []⟩ es) :
    Along trackedStep Bookkept ⟨fun _ => none, []⟩ es := by
  refine along_of_inv Tracks (fun s e h he => h.step he) (fun s e h he => h.bookkept he) ?_ hes
  intro row hrow
  cases hrow

section Sample

/-- A request with the cookie of session 7. -/
def sampleCaller (now : Int) : Caller where
  sid := 7
  freshSid := 7
  surrogate := 100
  ip := none
  userAgent := none
  now := now

def sampleVisit (now : Int) : TrackedStep := .request (sampleCaller now) (.visit sampleAccounts)

def sampleSignIn (googleId : String) (now : Int) : TrackedStep :=
  .request (sampleCaller now) (.identity (sampleLogin googleId))

/-- An ordinary user signs in on a browser session that an admin has used: the row stays
the admin's. -/
theorem row_keeps_first_user :
    let s := runEvents trackedStep ⟨fun _ => none, []⟩
      [sampleSignIn "g1" 0, sampleVisit 1, sampleSignIn "g3" 2]
    (s.session 7).userId = some 3 ∧
      (trackedStep s (sampleVisit 100)).rows.map (·.userId) = [1] ∧
      ¬ Along trackedStep Bookkept ⟨fun _ => none, []⟩
        [sampleSignIn "g1" 0, sampleVisit 1, sampleSignIn "g3" 2, sampleVisit 100] := by
  intro s
  have huser : (s.session 7).userId = some 3 := by decide
  have hrows : (trackedStep s (sampleVisit 100)).rows.map (·.userId) = [1] := by decide
  refine ⟨huser, hrows, fun h => ?_⟩
  have hlast : Bookkept s (sampleVisit 100) := h.2.2.2.1
  obtain ⟨row, hrow, -, hsame⟩ := hlast.seen (sampleCaller 100) sampleAccounts
    ⟨3, "user@example.org", some "g3", .user, .active, false, 0⟩ rfl (by decide)
  have hid : row.userId ∈ (trackedStep s (sampleVisit 100)).rows.map (·.userId) :=
    List.mem_map_of_mem hrow
  rw [hrows, List.mem_singleton] at hid
  have hcurrent : ((trackedStep s (sampleVisit 100)).session (sampleCaller 100).sid).userId =
      some 3 := by decide
  rw [hcurrent, hid] at hsame
  exact absurd hsame (by decide)

/-- The same user signs in again. -/
theorem session_list_sample :
    Along trackedStep Bookkept ⟨fun _ => none, []⟩
      [sampleSignIn "g1" 0, sampleVisit 1, sampleSignIn "g1" 2, sampleVisit 100] := by
  refine session_list_follows_identity _ ⟨?_, ?_, ?_, ?_, trivial⟩
  · intro session hsaves
    exact .inr fun row hrow => by cases hrow
  · intro session hsaves
    cases hsaves
  · intro session hsaves
    refine .inl ⟨_, rfl, ?_⟩
    cases hsaves
    rfl
  · intro session hsaves
    cases hsaves

end Sample

end Sessions
end Api
end ZeroVpn
