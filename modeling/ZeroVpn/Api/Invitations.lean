import ZeroVpn.Api.Sessions
import ZeroVpn.Library.Pool
import ZeroVpn.Library.Rows

/-!
# Invitations

`issue`, `verify`, `resend`, `create_link` and `revoke` of
`routes/invitations.rs`, `create_user` and `set_user_status` of
`routes/admin.rs` and the part of `google_callback` of `routes/oauth.rs` that
activates an account, over the tables `users` and `invitations`.  Every
statement is one call, so the requests interleave; the acceptance of an
invitation is one transaction.  The clock of a request is a parameter of the
request.

Two primitives are parameters: `Tokens.hash` is the SHA-256 of a token, and
`Tokens.fresh n` is the token that the `n`-th call of `fresh_token` draws.

`Registry.history` is not part of the program.  It records, the newest first,
the tokens that were stored and presented, and the revocations and acceptances
that took effect.  The stored rows say about the last token of a user what the
history says, so an account is activated only by the token that was stored last,
after it was presented.
-/

namespace ZeroVpn

open Library

namespace Api
namespace Invitations

open Db (Uuid DbError UserRole UserStatus)
open Sessions (GoogleInfo)

/-- The primitives behind the links. -/
structure Tokens where
  /-- `hash_token`. -/
  hash : String → String
  /-- `fresh_token`, by the number of tokens drawn before. -/
  fresh : Nat → String

/-- A row of `invitations`. -/
structure Invitation where
  userId : Uuid
  tokenHash : String
  expiresAt : Int
  verifiedAt : Option Int
  acceptedAt : Option Int
  revokedAt : Option Int
  deriving DecidableEq

/-- `accepted_at IS NULL AND revoked_at IS NULL`. -/
def Invitation.pending (r : Invitation) : Bool := r.acceptedAt.isNone && r.revokedAt.isNone

inductive Happening where
  | stored (userId : Uuid) (token : String) (expiresAt : Int)
  | presented (token : String)
  | revoked (userId : Uuid)
  | accepted (userId : Uuid)
  deriving DecidableEq

structure Registry where
  /-- The rows of `users` that are not deleted. -/
  users : List Sessions.Account
  invitations : List Invitation
  /-- The number of tokens that were drawn. -/
  drawn : Nat
  history : List Happening

/-- `INVITE_TTL`, in microseconds. -/
def inviteTtl : Int := 24 * 3600 * 1000000

inductive InvitationError where
  | notFound
  | forbidden
  | rateLimited
  | emailNotVerified
  | validation (message : String)
  | internal (message : String)
  | database (e : DbError)
  deriving DecidableEq

namespace Registry

/-- The row that `issue` and `create_link` write. -/
def issued (k : Tokens) (userId : Uuid) (token : String) (expiresAt : Int) : Invitation where
  userId := userId
  tokenHash := k.hash token
  expiresAt := expiresAt
  verifiedAt := none
  acceptedAt := none
  revokedAt := none

/-- Another row has the hash; `token_hash` is unique. -/
def hashTaken (s : Registry) (userId : Uuid) (hash : String) : Bool :=
  s.invitations.any fun r => r.tokenHash == hash && r.userId != userId

/-- The `INSERT … ON CONFLICT (user_id) DO UPDATE` of `issue`. -/
def upsert (k : Tokens) (userId : Uuid) (token : String) (expiresAt : Int) (s : Registry) :
    Registry × Except DbError Unit :=
  if s.hashTaken userId (k.hash token) then (s, .error .constraint)
  else
    ({ s with
        invitations := upsertRow (fun r => r.userId == userId) (issued k userId token expiresAt)
          (fun _ => issued k userId token expiresAt) s.invitations
        history := .stored userId token expiresAt :: s.history }, .ok ())

/-- The `UPDATE` of `create_link`, with the number of rows. -/
def replaceLink (k : Tokens) (userId : Uuid) (token : String) (expiresAt : Int) (s : Registry) :
    Registry × Except DbError Nat :=
  let open? := fun r : Invitation => r.userId == userId && r.pending
  if s.hashTaken userId (k.hash token) then (s, .error .constraint)
  else if rowsAffected open? s.invitations = 0 then (s, .ok 0)
  else
    ({ s with
        invitations := updateWhere open? (fun _ => issued k userId token expiresAt) s.invitations
        history := .stored userId token expiresAt :: s.history },
      .ok (rowsAffected open? s.invitations))

/-- The `UPDATE` of `verify`. -/
def verify (k : Tokens) (token : String) (now : Int) (s : Registry) :
    Registry × Except DbError Nat :=
  let usable := fun r : Invitation =>
    r.tokenHash == k.hash token && decide (now < r.expiresAt) && r.pending
  ({ s with
      invitations := updateWhere usable
        (fun r => { r with verifiedAt := some (r.verifiedAt.getD now) }) s.invitations
      history := .presented token :: s.history },
    .ok (rowsAffected usable s.invitations))

/-- The `UPDATE` of `revoke`. -/
def revoke (userId : Uuid) (now : Int) (s : Registry) : Registry × Except DbError Nat :=
  let open? := fun r : Invitation => r.userId == userId && r.pending
  if rowsAffected open? s.invitations = 0 then (s, .ok 0)
  else
    ({ s with
        invitations := updateWhere open? (fun r => { r with revokedAt := some now }) s.invitations
        history := .revoked userId :: s.history },
      .ok (rowsAffected open? s.invitations))

/-- How the transaction of `google_callback` ends. -/
inductive Acceptance where
  | accepted
  | notVerified
  | notPending
  deriving DecidableEq

/-- The invitation can be consumed. -/
def consumable (userId : Uuid) (now : Int) (r : Invitation) : Bool :=
  r.userId == userId && r.verifiedAt.isSome && decide (now < r.expiresAt) && r.pending

/-- The account waits for its activation. -/
def activatable (userId : Uuid) (u : Sessions.Account) : Bool :=
  u.id == userId && u.status == .pendingVerification && u.googleId.isNone

/-- The transaction of `google_callback`: both updates, or none of them. -/
def accept (userId : Uuid) (googleId : String) (now : Int) (s : Registry) :
    Registry × Except DbError Acceptance :=
  if rowsAffected (consumable userId now) s.invitations = 0 then (s, .ok .notVerified)
  else if rowsAffected (activatable userId) s.users ≠ 1 then (s, .ok .notPending)
  else if s.users.any fun u => u.googleId == some googleId then (s, .error .constraint)
  else
    ({ s with
        users := updateWhere (activatable userId)
          (fun u => { u with status := .active, googleId := some googleId }) s.users
        invitations := updateWhere (consumable userId now)
          (fun r => { r with acceptedAt := some now }) s.invitations
        history := .accepted userId :: s.history }, .ok .accepted)

/-- `users::create`; keys and emails are unique. -/
def createUser (id : Uuid) (email : String) (role : UserRole) (s : Registry) :
    Registry × Except DbError Uuid :=
  if s.users.any fun u => u.id == id || u.email == email then (s, .error .constraint)
  else
    ({ s with users := s.users ++
        [⟨id, email, none, role, .pendingVerification, false, 0⟩] }, .ok id)

/-- `users::link_google`. -/
def linkGoogle (id : Uuid) (googleId : String) (s : Registry) : Registry × Except DbError Nat :=
  let unlinked := fun u : Sessions.Account => u.id == id && u.googleId.isNone
  if s.users.any fun u => u.googleId == some googleId then (s, .error .constraint)
  else
    ({ s with
        users := updateWhere unlinked (fun u => { u with googleId := some googleId }) s.users },
      .ok (rowsAffected unlinked s.users))

/-- `users::admin_set_status`. -/
def adminSetStatus (id : Uuid) (status : UserStatus) (s : Registry) :
    Registry × Except DbError Nat :=
  ({ s with
      users := updateWhere (fun u => u.id == id) (fun u => { u with status := status }) s.users },
    .ok (rowsAffected (fun u : Sessions.Account => u.id == id) s.users))

/-- The role of an invited account that is invited again. -/
def updateRole (id : Uuid) (role : UserRole) (s : Registry) : Registry × Except DbError Unit :=
  ({ s with
      users := updateWhere (fun u => u.id == id && u.status == .pendingVerification)
        (fun u => { u with role := role }) s.users },
    .ok ())

def freshToken (k : Tokens) (s : Registry) : Registry × Except DbError String :=
  ({ s with drawn := s.drawn + 1 }, .ok (k.fresh s.drawn))

end Registry

open Registry (Acceptance)

/-- The statements, the draw of a token, and the mailer. -/
inductive InviteCmd where
  | findById (id : Uuid)
  | findByEmail (email : String)
  | findByGoogleId (googleId : String)
  | selectPending (userId : Uuid)
  | createUser (id : Uuid) (email : String) (role : UserRole)
  | updateRole (id : Uuid) (role : UserRole)
  | adminSetStatus (id : Uuid) (status : UserStatus)
  | linkGoogle (id : Uuid) (googleId : String)
  | freshToken
  | upsert (userId : Uuid) (token : String) (expiresAt : Int)
  | replaceLink (userId : Uuid) (token : String) (expiresAt : Int)
  | verify (token : String) (now : Int)
  | revoke (userId : Uuid) (now : Int)
  | accept (userId : Uuid) (googleId : String) (now : Int)
  | mailLimit (email : String)
  | sendEmail (email : String)
  | consumeState
  | audit (action : String) (target : Uuid)
  deriving DecidableEq

def InviteCmd.Answer : InviteCmd → Type
  | findById _ | findByEmail _ | findByGoogleId _ => Option Sessions.Account
  | selectPending _ => Option Uuid
  | createUser .. => Uuid
  | freshToken => String
  | adminSetStatus .. | linkGoogle .. | replaceLink .. | verify .. | revoke .. => Nat
  | accept .. => Acceptance
  | updateRole .. | upsert .. | mailLimit _ | sendEmail _ | consumeState | audit .. => Unit

/-- A call is answered, or fails without an effect. -/
def InviteCmd.Reply (c : InviteCmd) : Type := Except DbError c.Answer

def InviteCmd.exec (k : Tokens) : (c : InviteCmd) → Registry → Registry × Except DbError c.Answer
  | findById id, s => (s, .ok (Sessions.findById s.users id))
  | findByEmail email, s => (s, .ok (Sessions.findByEmail s.users email))
  | findByGoogleId googleId, s => (s, .ok (Sessions.findByGoogleId s.users googleId))
  | selectPending userId, s =>
      (s, .ok ((s.invitations.find? fun r => r.userId == userId && r.pending).map (·.userId)))
  | createUser id email role, s => s.createUser id email role
  | updateRole id role, s => s.updateRole id role
  | adminSetStatus id status, s => s.adminSetStatus id status
  | linkGoogle id googleId, s => s.linkGoogle id googleId
  | freshToken, s => s.freshToken k
  | upsert userId token expiresAt, s => s.upsert k userId token expiresAt
  | replaceLink userId token expiresAt, s => s.replaceLink k userId token expiresAt
  | verify token now, s => s.verify k token now
  | revoke userId now, s => s.revoke userId now
  | accept userId googleId now, s => s.accept userId googleId now
  | mailLimit _, s => (s, .ok ())
  | sendEmail _, s => (s, .ok ())
  | consumeState, s => (s, .ok ())
  | audit .., s => (s, .ok ())

def InviteCmd.sem (k : Tokens) (c : InviteCmd) : Bool → Registry → Registry × c.Reply
  | true, s => c.exec k s
  | false, s => (s, .error .unavailable)

abbrev InviteHandler (α : Type) := Attempt InviteCmd InviteCmd.Reply InvitationError α

/-- A statement. -/
def query (c : InviteCmd) : InviteHandler c.Answer :=
  Attempt.lift c fun r => r.mapError InvitationError.database

/-- A call whose failure has an error of its own. -/
def orElse (c : InviteCmd) (e : InvitationError) : InviteHandler c.Answer :=
  Attempt.lift c fun r => r.mapError fun _ => e

/-- A call whose failure is ignored. -/
def bestEffort (c : InviteCmd) : InviteHandler Unit :=
  Attempt.lift c fun _ => .ok ()

def okOr {α : Type} (o : Option α) (e : InvitationError) : InviteHandler α :=
  match o with
  | some a => pure a
  | none => throw e

def failIf (c : Bool) (e : InvitationError) : InviteHandler Unit :=
  if c then throw e else pure ()

/-- The extractor `RequireAdmin`. -/
def requireAdmin (adminId : Uuid) : InviteHandler Unit := do
  let found ← query (.findById adminId)
  let admin ← okOr found .forbidden
  failIf (admin.status != .active) .forbidden
  failIf (admin.role != .admin) .forbidden

/-- `issue`. -/
def issue (userId : Uuid) (email : String) (now : Int) : InviteHandler Unit := do
  orElse (.mailLimit email) .rateLimited
  let token ← query .freshToken
  query (.upsert userId token (now + inviteTtl))
  orElse (.sendEmail email) (.internal "invitation email failed")

/-- The account of a request for a pending invitation. -/
def pendingUser (id : Uuid) : InviteHandler Sessions.Account := do
  let found ← query (.findById id)
  let user ← okOr found .notFound
  failIf (user.status != .pendingVerification) (.validation "invitation is no longer pending")
  pure user

/-- `resend`. -/
def resend (adminId id : Uuid) (now : Int) : InviteHandler Unit := do
  requireAdmin adminId
  let user ← pendingUser id
  let pending ← query (.selectPending id)
  failIf pending.isNone .notFound
  issue id user.email now
  query (.audit "admin.invitation_resent" id)

/-- `create_link`. -/
def createLink (adminId id : Uuid) (now : Int) : InviteHandler Unit := do
  requireAdmin adminId
  let _ ← pendingUser id
  let token ← query .freshToken
  let updated : Nat ← query (.replaceLink id token (now + inviteTtl))
  failIf (updated != 1) .notFound
  query (.audit "admin.invitation_link_created" id)

/-- `verify`. -/
def verify (token : String) (now : Int) : InviteHandler Unit := do
  failIf (decide (token.utf8ByteSize < 16)) (.validation "invalid invitation")
  let updated : Nat ← query (.verify token now)
  failIf (updated != 1) (.validation "invalid or expired invitation")

/-- `revoke`. -/
def revoke (adminId id : Uuid) (now : Int) : InviteHandler Unit := do
  requireAdmin adminId
  let updated : Nat ← query (.revoke id now)
  failIf (updated != 1) .notFound
  query (.audit "admin.invitation_revoked" id)

/-- `create_user`; the email is trimmed and in lower case, `newId` is the new key. -/
def createUser (adminId newId : Uuid) (email : String) (role : UserRole) (now : Int) :
    InviteHandler Unit := do
  requireAdmin adminId
  failIf (!email.toList.contains '@') (.validation "email is required and must contain @")
  let found ← query (.findByEmail email)
  match found with
  | some existing =>
      failIf (existing.status != .pendingVerification) (.validation "email already in use")
      let live ← query (.selectPending existing.id)
      failIf live.isSome (.validation "email already in use")
      query (.updateRole existing.id role)
      issue existing.id email now
      query (.audit "admin.invitation_reissued" existing.id)
  | none =>
      let id ← query (.createUser newId email role)
      issue id email now
      query (.audit "admin.invitation_created" id)

/-- The activation of an invited account, or the link of an active one. -/
def linkAccount (u : Sessions.Account) (info : GoogleInfo) (now : Int) : InviteHandler Unit :=
  if u.status = .pendingVerification then do
    let ending : Acceptance ← query (.accept u.id info.sub now)
    failIf (ending == .notVerified) .emailNotVerified
    failIf (ending == .notPending) .forbidden
    bestEffort (.audit "auth.invitation_accepted" u.id)
  else do
    failIf (u.status != .active) .forbidden
    let linked : Nat ← query (.linkGoogle u.id info.sub)
    failIf (linked != 1) .forbidden

/-- The account of a Google identity that is not linked: it is found by its email. -/
def invitedAccount (info : GoogleInfo) (now : Int) : InviteHandler Sessions.Account := do
  let invited ← query (.findByEmail info.email)
  let u ← okOr invited .forbidden
  linkAccount u info now
  bestEffort (.audit "auth.google.linked" u.id)
  let again ← query (.findByEmail info.email)
  okOr again (.internal "user vanished after link")

/-- The account that a Google identity signs in to. -/
def callbackAccount (linked : Option Sessions.Account) (info : GoogleInfo) (now : Int) :
    InviteHandler Sessions.Account :=
  match linked with
  | some u => pure u
  | none => invitedAccount info now

/-- `google_callback`, up to the session. -/
def googleCallback (info : GoogleInfo) (now : Int) : InviteHandler Unit := do
  orElse .consumeState (.validation "invalid or expired state")
  failIf (!info.emailVerified) (.validation "google account email is not verified")
  let linked ← query (.findByGoogleId info.sub)
  let user ← callbackAccount linked info now
  failIf (user.status != .active && user.status != .pendingVerification) .forbidden
  failIf (user.status == .pendingVerification) .emailNotVerified

/-- `set_user_status`, on the status column. -/
def setUserStatus (adminId id : Uuid) (status : UserStatus) : InviteHandler Unit := do
  requireAdmin adminId
  failIf (id == adminId) (.validation "cannot change your own status")
  let found ← query (.findById id)
  let user ← okOr found .notFound
  failIf (user.status == .pendingVerification || status == .pendingVerification)
    (.validation
      "pending invitations can only be activated by email verification and Google sign-in")
  let n : Nat ← query (.adminSetStatus id status)
  failIf (n == 0) .notFound
  query (.audit "admin.user_status_changed" id)

/-- The requests. -/
inductive InviteOp where
  | createUser (adminId newId : Uuid) (email : String) (role : UserRole) (now : Int)
  | resend (adminId id : Uuid) (now : Int)
  | createLink (adminId id : Uuid) (now : Int)
  | verify (token : String) (now : Int)
  | revoke (adminId id : Uuid) (now : Int)
  | googleCallback (info : GoogleInfo) (now : Int)
  | setUserStatus (adminId id : Uuid) (status : UserStatus)
  deriving DecidableEq

def InviteOp.handler : InviteOp → InviteHandler Unit
  | createUser adminId newId email role now => Invitations.createUser adminId newId email role now
  | resend adminId id now => Invitations.resend adminId id now
  | createLink adminId id now => Invitations.createLink adminId id now
  | verify token now => Invitations.verify token now
  | revoke adminId id now => Invitations.revoke adminId id now
  | googleCallback info now => Invitations.googleCallback info now
  | setUserStatus adminId id status => Invitations.setUserStatus adminId id status

/-- Requests of any number of users, each one call at a time. -/
def inviteSystem (k : Tokens) :
    System Registry InviteOp Unit InviteCmd InviteCmd.Reply (Except InvitationError Unit) where
  body op := op.handler.run
  sem _ c ok s := c.sem k ok s
  crash _ s := s
  restart _ s := s

abbrev InvitePool :=
  Pool Registry InviteOp InviteCmd InviteCmd.Reply (Except InvitationError Unit)

def inviteIdle (s : Registry) : InvitePool where
  shared := s
  threads := []

end Invitations
end Api
end ZeroVpn
