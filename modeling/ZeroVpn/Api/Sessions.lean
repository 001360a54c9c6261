import ZeroVpn.Api.Commands
import ZeroVpn.Library.Machine

/-!
# The identity of a browser session

`google_callback` and `google_verify_totp` of `routes/oauth.rs`,
`impersonate_user` and `stop_impersonation` of `routes/admin.rs` and `logout`
of `routes/auth.rs`, as functions of the session keys, with the extractors
`CurrentUser` and `RequireAdmin` of `extractors/auth.rs`.

The database may change between requests, so every request carries the rows
that its lookups see and the outcomes of its statements.  The session of a
request that ends in a server error is not saved; the other errors come before
the first change of a key.  A flush removes the cookie as well, so the browser
is without a session after it.

An impersonation saves the user of the session, and `stop_impersonation`
restores the saved user.  Two requests break the link between the saved user
and the one who authenticated: a login does not clear what an impersonation
saved, and an impersonation inside another one overwrites it.
-/

namespace ZeroVpn

open Library

namespace Api

namespace Sessions

open Db (Uuid UserRole UserStatus)

/-- The columns of `users` that the handlers read. -/
structure Account where
  id : Uuid
  email : String
  googleId : Option String
  role : UserRole
  status : UserStatus
  totpEnabled : Bool
  /-- Microseconds since the epoch. -/
  passwordChangedAt : Int
  deriving DecidableEq, Repr

/-- `password_changed_at.unix_timestamp()`. -/
def Account.watermark (a : Account) : Int := a.passwordChangedAt / 1000000

/-- `users::find_by_id`. -/
def findById (accounts : List Account) (id : Uuid) : Option Account :=
  accounts.find? fun a => a.id == id

/-- `users::find_by_google_id`. -/
def findByGoogleId (accounts : List Account) (googleId : String) : Option Account :=
  accounts.find? fun a => a.googleId == some googleId

/-- `users::find_by_email`. -/
def findByEmail (accounts : List Account) (email : String) : Option Account :=
  accounts.find? fun a => a.email == email

theorem findById_id {accounts : List Account} {id : Uuid} {a : Account}
    (h : findById accounts id = some a) : a.id = id := by
  simpa using List.find?_some h

/-- The session keys of `extractors/auth.rs`. -/
structure Session where
  userId : Option Uuid
  pwChangedAt : Option Int
  pendingTotpUser : Option Uuid
  realUserId : Option Uuid
  realPwChangedAt : Option Int
  deriving DecidableEq, Repr

/-- No session. -/
def Session.empty : Session where
  userId := none
  pwChangedAt := none
  pendingTotpUser := none
  realUserId := none
  realPwChangedAt := none

inductive SessionError where
  | notFound
  | unauthorized
  | forbidden
  | emailNotVerified
  | validation (message : String)
  | internal (message : String)
  deriving DecidableEq, Repr

/-- The fields of `LoginResponse` that depend on the session. -/
structure LoginResponse where
  user : Uuid
  totpRequired : Bool
  deriving DecidableEq, Repr

/-- A statement of the database, or an access of the session store, that must
succeed. -/
def require (ok : Bool) (e : SessionError) : Except SessionError Unit :=
  if ok then .ok () else .error e

/-- What Google says about its user. -/
structure GoogleInfo where
  sub : String
  /-- Trimmed and in lower case. -/
  email : String
  emailVerified : Bool
  deriving DecidableEq, Repr

structure CallbackRequest where
  /-- Google sign-in is configured. -/
  configured : Bool
  /-- The state was issued and has not expired. -/
  stateValid : Bool
  /-- The answers of Google; nothing when a call fails. -/
  info : Option GoogleInfo
  /-- The accounts at the lookups. -/
  accounts : List Account
  /-- The statement that consumes a verified invitation returns its row. -/
  invitationConsumed : Bool
  /-- The statement that links the account changes one row. -/
  linked : Bool
  /-- The accounts after the link. -/
  accountsAfter : List Account
  /-- The later statements and the session store succeed. -/
  saved : Bool
  deriving DecidableEq, Repr

/-- The account that a Google identity signs in to. -/
def CallbackRequest.account (r : CallbackRequest) (email googleId : String) :
    Except SessionError Account :=
  match findByGoogleId r.accounts googleId with
  | some u => .ok u
  | none =>
      match findByEmail r.accounts email with
      | none => .error .forbidden
      | some u => do
          if u.status = .pendingVerification then
            require r.invitationConsumed .emailNotVerified
            require r.linked .forbidden
          else
            require (u.status = .active) .forbidden
            require r.linked .forbidden
          match findByEmail r.accountsAfter email with
          | some u => .ok u
          | none => .error (.internal "user vanished after link")

/-- `google_callback`. -/
def googleCallback (r : CallbackRequest) (s : Session) :
    Except SessionError (Session × LoginResponse) := do
  require r.configured (.internal "google oauth not configured")
  require r.stateValid (.validation "invalid or expired state")
  match r.info with
  | none => .error (.internal "google")
  | some info =>
      require info.emailVerified (.validation "google account email is not verified")
      let user ← r.account info.email info.sub
      require (user.status = .active || user.status = .pendingVerification) .forbidden
      require (user.status ≠ .pendingVerification) .emailNotVerified
      require r.saved (.internal "session")
      if user.totpEnabled then
        .ok ({ s with pendingTotpUser := some user.id }, ⟨user.id, true⟩)
      else
        .ok ({ s with userId := some user.id, pwChangedAt := some user.watermark },
          ⟨user.id, false⟩)

structure TotpRequest where
  /-- The code, trimmed. -/
  code : String
  /-- `verify_totp_or_recovery`; nothing when a statement of it fails. -/
  verified : Option Bool
  accounts : List Account
  saved : Bool
  deriving DecidableEq, Repr

/-- The code is checked unless it is empty. -/
def TotpRequest.accepted (r : TotpRequest) : Except SessionError Bool :=
  if r.code.isEmpty then .ok false
  else
    match r.verified with
    | some ok => .ok ok
    | none => .error (.internal "totp")

/-- `google_verify_totp`. -/
def googleVerifyTotp (r : TotpRequest) (s : Session) :
    Except SessionError (Session × LoginResponse) :=
  match s.pendingTotpUser with
  | none => .error .unauthorized
  | some userId => do
      let ok ← r.accepted
      require ok .unauthorized
      match findById r.accounts userId with
      | none => .error (.internal "pending user vanished")
      | some user =>
          require (user.status = .active) .forbidden
          require r.saved (.internal "session")
          .ok ({ s with
            pendingTotpUser := none
            userId := some user.id
            pwChangedAt := some user.watermark }, ⟨user.id, false⟩)

/-- The extractor `CurrentUser`. -/
def currentUser (accounts : List Account) (s : Session) : Except SessionError Account :=
  match s.userId with
  | none => .error .unauthorized
  | some id =>
      match findById accounts id with
      | none => .error .unauthorized
      | some user => do
          require (user.status = .active) .forbidden
          require (s.pwChangedAt = some user.watermark) .unauthorized
          .ok user

/-- The extractor `RequireAdmin`. -/
def requireAdmin (accounts : List Account) (s : Session) : Except SessionError Account := do
  let user ← currentUser accounts s
  require (user.role = .admin) .forbidden
  .ok user

structure ImpersonateRequest where
  target : Uuid
  /-- The accounts when the extractor runs. -/
  accounts : List Account
  /-- The accounts when the target is looked up. -/
  targets : List Account
  saved : Bool
  deriving DecidableEq, Repr

/-- `impersonate_user`. -/
def impersonateUser (r : ImpersonateRequest) (s : Session) : Except SessionError Session := do
  let actor ← requireAdmin r.accounts s
  require (r.target ≠ actor.id) (.validation "cannot impersonate yourself")
  match findById r.targets r.target with
  | none => .error .notFound
  | some target =>
      require (target.status = .active) (.validation "can only impersonate active users")
      require r.saved (.internal "session")
      .ok { s with
        realUserId := some actor.id
        realPwChangedAt := some actor.watermark
        userId := some target.id
        pwChangedAt := some target.watermark }

/-- `stop_impersonation`. -/
def stopImpersonation (saved : Bool) (s : Session) : Except SessionError Session :=
  match s.realUserId with
  | none => .error (.validation "not in an impersonated session")
  | some realUserId =>
      match s.realPwChangedAt with
      | none => .error (.internal "missing real pw watermark")
      | some realPw => do
          require saved (.internal "session")
          .ok { s with
            userId := some realUserId
            pwChangedAt := some realPw
            realUserId := none
            realPwChangedAt := none }

/-- The requests of a browser. -/
inductive Request where
  | googleCallback (r : CallbackRequest)
  | googleVerifyTotp (r : TotpRequest)
  | impersonateUser (r : ImpersonateRequest)
  | stopImpersonation (saved : Bool)
  | logout
  deriving DecidableEq, Repr

/-- A browser session with its history. -/
structure Browser where
  session : Session
  /-- The user who authenticated last: through Google and, where enabled, TOTP. -/
  authenticated : Option Uuid
  /-- The user who started the last impersonation. -/
  startedBy : Option Uuid
  deriving DecidableEq, Repr

def Browser.start : Browser := ⟨.empty, none, none⟩

/-- A login that succeeded. -/
def Browser.login (b : Browser) (s : Session) (response : LoginResponse) : Browser where
  session := s
  authenticated := if response.totpRequired then b.authenticated else some response.user
  startedBy := b.startedBy

/-- One request. -/
def serve (b : Browser) : Request → Browser
  | .googleCallback r =>
      match googleCallback r b.session with
      | .ok (s, response) => b.login s response
      | .error _ => b
  | .googleVerifyTotp r =>
      match googleVerifyTotp r b.session with
      | .ok (s, response) => b.login s response
      | .error _ => b
  | .impersonateUser r =>
      match impersonateUser r b.session with
      | .ok s => { b with session := s, startedBy := b.session.userId }
      | .error _ => b
  | .stopImpersonation saved =>
      match stopImpersonation saved b.session with
      | .ok s => { b with session := s }
      | .error _ => b
  | .logout => { b with session := .empty }

/-- A `stop_impersonation` that succeeds restores the user who authenticated last
on the session, and that user started the impersonation. -/
def StopRestores (b : Browser) : Prop :=
  ∀ saved s, stopImpersonation saved b.session = .ok s →
    ∃ u, b.authenticated = some u ∧ b.startedBy = some u ∧ s.userId = some u

/-- The user whom a login signs in, or for whom an impersonation is started. -/
def identity (s : Session) : Request → Option Uuid
  | .googleCallback r =>
      match googleCallback r s with
      | .ok (_, response) => if response.totpRequired then none else some response.user
      | .error _ => none
  | .googleVerifyTotp r =>
      match googleVerifyTotp r s with
      | .ok (_, response) => some response.user
      | .error _ => none
  | .impersonateUser r =>
      match impersonateUser r s with
      | .ok _ => s.userId
      | .error _ => none
  | .stopImpersonation _ => none
  | .logout => none

/-- No login as somebody else and no further impersonation while the session holds
the saved identity of an impersonation. -/
def KeepsIdentity (b : Browser) (e : Request) : Prop :=
  ∀ saved u, b.session.realUserId = some saved → identity b.session e = some u → u = saved

/-! ## What a request that succeeds does -/

@[simp] theorem require_eq_ok {c : Bool} {e : SessionError} {u : Unit} :
    require c e = .ok u ↔ c = true := by
  cases c <;> simp [require]

theorem bind_eq_ok {α β : Type} {x : Except SessionError α} {f : α → Except SessionError β}
    {b : β} : (x >>= f) = .ok b ↔ ∃ a, x = .ok a ∧ f a = .ok b := by
  cases x with
  | error e =>
      simp [bind, Except.bind]
  | ok a =>
      simp [bind, Except.bind]

/-- A login changes the user of the session or the pending one. -/
theorem googleCallback_ok {r : CallbackRequest} {s s' : Session} {response : LoginResponse}
    (h : googleCallback r s = .ok (s', response)) :
    s'.realUserId = s.realUserId ∧ s'.realPwChangedAt = s.realPwChangedAt ∧
      s'.userId = if response.totpRequired then s.userId else some response.user := by
  unfold googleCallback at h
  simp only [bind_eq_ok, require_eq_ok] at h
  obtain ⟨_, -, _, -, h⟩ := h
  cases hinfo : r.info with
  | none =>
      rw [hinfo] at h
      cases h
  | some info =>
      rw [hinfo] at h
      simp only [bind_eq_ok, require_eq_ok] at h
      obtain ⟨_, -, user, -, _, -, _, -, _, -, h⟩ := h
      cases htotp : user.totpEnabled <;> (rw [htotp] at h; cases h; exact ⟨rfl, rfl, rfl⟩)

theorem googleVerifyTotp_ok {r : TotpRequest} {s s' : Session} {response : LoginResponse}
    (h : googleVerifyTotp r s = .ok (s', response)) :
    s'.realUserId = s.realUserId ∧ s'.realPwChangedAt = s.realPwChangedAt ∧
      s'.userId = some response.user ∧ response.totpRequired = false := by
  unfold googleVerifyTotp at h
  cases hpending : s.pendingTotpUser with
  | none =>
      rw [hpending] at h
      cases h
  | some userId =>
      rw [hpending] at h
      simp only [bind_eq_ok, require_eq_ok] at h
      obtain ⟨_, -, _, -, h⟩ := h
      cases huser : findById r.accounts userId with
      | none =>
          rw [huser] at h
          cases h
      | some user =>
          rw [huser] at h
          simp only [bind_eq_ok, require_eq_ok] at h
          obtain ⟨_, -, _, -, h⟩ := h
          cases h
          exact ⟨rfl, rfl, rfl, rfl⟩

/-- The user of a request is the user of its session, and the watermark is that of the row. -/
theorem currentUser_ok {accounts : List Account} {s : Session} {user : Account}
    (h : currentUser accounts s = .ok user) :
    s.userId = some user.id ∧ findById accounts user.id = some user ∧
      s.pwChangedAt = some user.watermark := by
  unfold currentUser at h
  cases hid : s.userId with
  | none =>
      rw [hid] at h
      cases h
  | some id =>
      cases hfind : findById accounts id with
      | none =>
          simp only [hid, hfind] at h
          cases h
      | some found =>
          simp only [hid, hfind, bind_eq_ok, require_eq_ok] at h
          obtain ⟨_, -, _, hpw, h⟩ := h
          cases h
          rw [findById_id hfind]
          exact ⟨rfl, hfind, of_decide_eq_true hpw⟩

theorem requireAdmin_ok {accounts : List Account} {s : Session} {actor : Account}
    (h : requireAdmin accounts s = .ok actor) : s.userId = some actor.id := by
  unfold requireAdmin at h
  simp only [bind_eq_ok, require_eq_ok] at h
  obtain ⟨user, hcurrent, _, -, h⟩ := h
  cases h
  exact (currentUser_ok hcurrent).1

/-- An impersonation saves the user of the session. -/
theorem impersonateUser_ok {r : ImpersonateRequest} {s s' : Session}
    (h : impersonateUser r s = .ok s') :
    ∃ actor pw, s.userId = some actor ∧ s'.realUserId = some actor ∧
      s'.realPwChangedAt = some pw := by
  unfold impersonateUser at h
  simp only [bind_eq_ok, require_eq_ok] at h
  obtain ⟨actor, hactor, _, -, h⟩ := h
  refine ⟨actor.id, actor.watermark, requireAdmin_ok hactor, ?_⟩
  cases htarget : findById r.targets r.target with
  | none =>
      rw [htarget] at h
      cases h
  | some target =>
      rw [htarget] at h
      simp only [bind_eq_ok, require_eq_ok] at h
      obtain ⟨_, -, _, -, h⟩ := h
      cases h
      exact ⟨rfl, rfl⟩

/-- What is restored is the saved user. -/
theorem stopImpersonation_ok {saved : Bool} {s s' : Session}
    (h : stopImpersonation saved s = .ok s') :
    ∃ u, s.realUserId = some u ∧ s'.userId = some u ∧ s'.realUserId = none ∧
      s'.realPwChangedAt = none := by
  unfold stopImpersonation at h
  cases hreal : s.realUserId with
  | none =>
      rw [hreal] at h
      cases h
  | some u =>
      rw [hreal] at h
      cases hpw : s.realPwChangedAt with
      | none =>
          rw [hpw] at h
          cases h
      | some pw =>
          rw [hpw] at h
          simp only [bind_eq_ok, require_eq_ok] at h
          obtain ⟨_, -, h⟩ := h
          cases h
          exact ⟨u, rfl, rfl, rfl, rfl⟩

/-- A saved identity can be restored. -/
theorem stopImpersonation_succeeds {s : Session} {u : Uuid} {pw : Int}
    (hreal : s.realUserId = some u) (hpw : s.realPwChangedAt = some pw) :
    ∃ s', stopImpersonation true s = .ok s' := by
  unfold stopImpersonation
  rw [hreal, hpw]
  exact ⟨_, rfl⟩

/-! ## The saved identity over whole histories -/

/-- What holds of a session as long as every stop would restore the right user. -/
structure SessionInv (b : Browser) : Prop where
  paired : b.session.realUserId.isSome = b.session.realPwChangedAt.isSome
  started : ∀ u, b.session.realUserId = some u → b.startedBy = some u
  own : b.session.realUserId = none → ∀ u, b.session.userId = some u → b.authenticated = some u

theorem stopRestores_iff {b : Browser} (hb : SessionInv b) :
    StopRestores b ↔ ∀ u, b.session.realUserId = some u → b.authenticated = some u := by
  constructor
  · intro h u hreal
    have hsome : b.session.realPwChangedAt.isSome = true := by
      rw [← hb.paired, hreal]
      rfl
    obtain ⟨pw, hpw⟩ := Option.isSome_iff_exists.mp hsome
    obtain ⟨s', hs'⟩ := stopImpersonation_succeeds hreal hpw
    obtain ⟨v, hauth, -, hv⟩ := h true s' hs'
    obtain ⟨u', hreal', hu', -⟩ := stopImpersonation_ok hs'
    have huv : u' = v := Option.some.inj (hu'.symm.trans hv)
    have huu : u = u' := Option.some.inj (hreal.symm.trans hreal')
    rw [huu, huv]
    exact hauth
  · intro h saved s hs
    obtain ⟨u, hreal, hu, -⟩ := stopImpersonation_ok hs
    exact ⟨u, h u hreal, hb.started u hreal, hu⟩

/-- The rule for a request that signs a user in. -/
theorem login_step {b : Browser} (hb : SessionInv b) (hstop : StopRestores b) {s : Session}
    {response : LoginResponse} (hreal : s.realUserId = b.session.realUserId)
    (hpw : s.realPwChangedAt = b.session.realPwChangedAt)
    (huser : s.userId = if response.totpRequired then b.session.userId else some response.user) :
    SessionInv (b.login s response) ∧
      (StopRestores (b.login s response) ↔ ∀ saved u, b.session.realUserId = some saved →
        (if response.totpRequired then none else some response.user) = some u → u = saved) := by
  have hinv : SessionInv (b.login s response) := by
    refine ⟨?_, ?_, ?_⟩
    · show s.realUserId.isSome = s.realPwChangedAt.isSome
      rw [hreal, hpw, hb.paired]
    · intro u hu
      exact hb.started u (hreal ▸ hu)
    · intro hnone u hu
      have hown := hb.own (hreal ▸ hnone) u
      replace hu : s.userId = some u := hu
      rw [huser] at hu
      show (if response.totpRequired then b.authenticated else some response.user) = some u
      cases htotp : response.totpRequired with
      | true =>
          rw [htotp] at hu
          exact hown hu
      | false =>
          rw [htotp] at hu
          exact hu
  refine ⟨hinv, ?_⟩
  rw [stopRestores_iff hinv]
  have hauth := (stopRestores_iff hb).mp hstop
  show (∀ u, s.realUserId = some u →
    (if response.totpRequired then b.authenticated else some response.user) = some u) ↔ _
  rw [hreal]
  cases response.totpRequired with
  | true =>
      refine ⟨fun _ _ _ _ h => ?_, fun _ => hauth⟩
      cases h
  | false =>
      constructor
      · intro h saved u hsaved hu
        exact Option.some.inj (hu.symm.trans (h saved hsaved))
      · intro h u hu
        rw [← h u response.user hu rfl]
        rfl

/-- The rule for an impersonation. -/
theorem impersonate_step {b : Browser} (hb : SessionInv b) (hstop : StopRestores b) {s : Session}
    {actor : Uuid} {pw : Int} (huser : b.session.userId = some actor)
    (hreal : s.realUserId = some actor) (hpw : s.realPwChangedAt = some pw) :
    SessionInv { b with session := s, startedBy := b.session.userId } ∧
      (StopRestores { b with session := s, startedBy := b.session.userId } ↔
        ∀ saved u, b.session.realUserId = some saved → b.session.userId = some u → u = saved) := by
  have hinv : SessionInv { b with session := s, startedBy := b.session.userId } := by
    refine ⟨?_, ?_, ?_⟩
    · show s.realUserId.isSome = s.realPwChangedAt.isSome
      rw [hreal, hpw]
      rfl
    · intro u hu
      exact huser.trans (hreal.symm.trans hu)
    · intro hnone
      cases hreal.symm.trans hnone
  refine ⟨hinv, ?_⟩
  rw [stopRestores_iff hinv]
  have hauth := (stopRestores_iff hb).mp hstop
  constructor
  · intro h saved u hsaved hu
    have hnow : b.authenticated = some actor := h actor hreal
    have hthen := hauth saved hsaved
    exact Option.some.inj (hu.symm.trans (huser.trans (hnow.symm.trans hthen)))
  · intro h u hu
    obtain rfl : actor = u := Option.some.inj (hreal.symm.trans hu)
    cases hsaved : b.session.realUserId with
    | none =>
        exact hb.own hsaved actor huser
    | some saved =>
        rw [h saved actor hsaved huser]
        exact hauth saved hsaved

/-- A request that leaves no identity saved. -/
theorem cleared_step {b : Browser} {s : Session} (hreal : s.realUserId = none)
    (hpw : s.realPwChangedAt = none) (hown : ∀ u, s.userId = some u → b.authenticated = some u) :
    SessionInv { b with session := s } ∧ StopRestores { b with session := s } := by
  have hinv : SessionInv { b with session := s } := by
    refine ⟨?_, ?_, fun _ => hown⟩
    · show s.realUserId.isSome = s.realPwChangedAt.isSome
      rw [hreal, hpw]
      rfl
    · intro u hu
      cases hreal.symm.trans hu
  refine ⟨hinv, (stopRestores_iff hinv).mpr ?_⟩
  intro u hu
  cases hreal.symm.trans hu

theorem keepsIdentity_of_none {b : Browser} {e : Request} (h : identity b.session e = none) :
    KeepsIdentity b e := by
  intro saved u _ hu
  cases h.symm.trans hu

/-- A request that fails. -/
theorem failed_step {b : Browser} (hb : SessionInv b) (hstop : StopRestores b) {e : Request}
    (hsame : serve b e = b) (hnone : identity b.session e = none) :
    SessionInv (serve b e) ∧ (StopRestores (serve b e) ↔ KeepsIdentity b e) := by
  rw [hsame]
  exact ⟨hb, fun _ => keepsIdentity_of_none hnone, fun _ => hstop⟩

/-- One request: the invariant is kept, and every stop restores the right user
after it exactly when it keeps the identity. -/
theorem serve_step {b : Browser} (hb : SessionInv b) (hstop : StopRestores b) (e : Request) :
    SessionInv (serve b e) ∧ (StopRestores (serve b e) ↔ KeepsIdentity b e) := by
  cases e with
  | googleCallback r =>
      rcases h : googleCallback r b.session with error | ⟨s, response⟩
      · exact failed_step hb hstop (by simp only [serve, h]) (by simp only [identity, h])
      · obtain ⟨hreal, hpw, huser⟩ := googleCallback_ok h
        have hstep := login_step hb hstop hreal hpw huser
        unfold KeepsIdentity
        simp only [serve, identity, h]
        exact hstep
  | googleVerifyTotp r =>
      rcases h : googleVerifyTotp r b.session with error | ⟨s, response⟩
      · exact failed_step hb hstop (by simp only [serve, h]) (by simp only [identity, h])
      · obtain ⟨hreal, hpw, huser, htotp⟩ := googleVerifyTotp_ok h
        have hlogin : s.userId =
            if response.totpRequired then b.session.userId else some response.user := by
          rw [htotp]
          exact huser
        have hstep := login_step hb hstop hreal hpw hlogin
        unfold KeepsIdentity
        simp only [serve, identity, h]
        rw [htotp] at hstep
        exact hstep
  | impersonateUser r =>
      rcases h : impersonateUser r b.session with error | s
      · exact failed_step hb hstop (by simp only [serve, h]) (by simp only [identity, h])
      · obtain ⟨actor, pw, huser, hreal, hpw⟩ := impersonateUser_ok h
        have hstep := impersonate_step hb hstop huser hreal hpw
        unfold KeepsIdentity
        simp only [serve, identity, h]
        exact hstep
  | stopImpersonation saved =>
      rcases h : stopImpersonation saved b.session with error | s
      · exact failed_step hb hstop (by simp only [serve, h]) rfl
      · obtain ⟨u, hsaved, huser, hreal, hpw⟩ := stopImpersonation_ok h
        have hauth : ∀ v, s.userId = some v → b.authenticated = some v := by
          intro v hv
          rw [← Option.some.inj (huser.symm.trans hv)]
          exact (stopRestores_iff hb).mp hstop u hsaved
        obtain ⟨hinv, hafter⟩ := cleared_step hreal hpw hauth
        simp only [serve, h]
        exact ⟨hinv, fun _ => keepsIdentity_of_none rfl, fun _ => hafter⟩
  | logout =>
      have hnobody : ∀ u, Session.empty.userId = some u → b.authenticated = some u := by
        intro u hu
        cases hu
      obtain ⟨hinv, hafter⟩ := cleared_step (s := .empty) rfl rfl hnobody
      exact ⟨hinv, fun _ => keepsIdentity_of_none rfl, fun _ => hafter⟩

theorem sessionInv_start : SessionInv Browser.start where
  paired := rfl
  started := by
    intro u hu
    cases hu
  own := by
    intro _ u hu
    cases hu

/-- Over every history of a browser session, a `stop_impersonation` that succeeds
restores the user who authenticated last and who started the impersonation,
exactly when every request keeps the saved identity. -/
theorem stop_restores_iff (es : List Request) :
    Always serve StopRestores Browser.start es ↔ Along serve KeepsIdentity Browser.start es := by
  have hstop : StopRestores Browser.start := by
    intro saved s hs
    cases hs
  exact always_iff_along (fun b e hb hstop => (serve_step hb hstop e).1)
    (fun b e hb hstop => (serve_step hb hstop e).2) sessionInv_start hstop

theorem not_stopRestores {b : Browser} {u v : Uuid} {p : Int}
    (hreal : b.session.realUserId = some u) (hpw : b.session.realPwChangedAt = some p)
    (hauth : b.authenticated = some v) (hne : v ≠ u) : ¬ StopRestores b := by
  intro h
  obtain ⟨s, hs⟩ := stopImpersonation_succeeds hreal hpw
  obtain ⟨w, hw, -, hrestored⟩ := h true s hs
  obtain ⟨u', hreal', hu', -⟩ := stopImpersonation_ok hs
  have hwu : w = u' := Option.some.inj (hrestored.symm.trans hu')
  have huu : u = u' := Option.some.inj (hreal.symm.trans hreal')
  exact hne (Option.some.inj (hauth.symm.trans (hw.trans (by rw [hwu, huu]))))

/-- An admin, another admin and an ordinary user. -/
def sampleAccounts : List Account :=
  [⟨1, "admin@example.org", some "g1", .admin, .active, false, 0⟩,
   ⟨2, "second@example.org", some "g2", .admin, .active, false, 0⟩,
   ⟨3, "user@example.org", some "g3", .user, .active, false, 0⟩]

def sampleLogin (googleId : String) : Request :=
  .googleCallback
    { configured := true
      stateValid := true
      info := some ⟨googleId, "", true⟩
      accounts := sampleAccounts
      invitationConsumed := false
      linked := false
      accountsAfter := sampleAccounts
      saved := true }

def sampleImpersonate (target : Uuid) : Request :=
  .impersonateUser ⟨target, sampleAccounts, sampleAccounts, true⟩

/-- The ordinary user signs in on the session of an impersonating admin and becomes
that admin; and an admin who impersonates from inside an impersonation comes back as
the impersonated admin. -/
theorem stop_restores_somebody_else :
    let login := runEvents serve .start [sampleLogin "g1", sampleImpersonate 2, sampleLogin "g3"]
    let nested := runEvents serve .start
      [sampleLogin "g1", sampleImpersonate 2, sampleImpersonate 3]
    (login.authenticated = some 3 ∧
        (serve login (.stopImpersonation true)).session.userId = some 1 ∧
        ¬ StopRestores login) ∧
      (nested.authenticated = some 1 ∧
        (serve nested (.stopImpersonation true)).session.userId = some 2 ∧
        ¬ StopRestores nested) := by
  intro login nested
  refine ⟨⟨by decide, by decide, ?_⟩, by decide, by decide, ?_⟩
  · exact not_stopRestores (u := 1) (v := 3) (p := 0) (by decide) (by decide)
      (by decide) (by decide)
  · exact not_stopRestores (u := 2) (v := 1) (p := 0) (by decide) (by decide)
      (by decide) (by decide)

end Sessions

end Api
end ZeroVpn
