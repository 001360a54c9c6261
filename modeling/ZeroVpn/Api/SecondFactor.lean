import ZeroVpn.Api.RecoveryCodes
import ZeroVpn.Api.Sessions

/-!
# The second factor of a login

`google_callback` leaves only a marker in the session of an account with 2FA;
`google_verify_totp` turns the marker into the identity of the session after
`verify_totp_or_recovery` has accepted a code for the marked user.  Marker and
identity live side by side in one session, so the logins of several accounts
may overlap there.

The sessions are those of `Sessions`, without impersonation.  Of the requests
behind `CurrentUser`, `revoke_other_sessions` renews the watermark of its
session, `delete_account` flushes it, and no other one writes to it.
-/

namespace ZeroVpn

open Library

namespace Api
namespace Sessions

open Db (Uuid)
open RecoveryCodes (Crypto Store TotpCmd verifyTotpOrRecovery)

/-- A `google_verify_totp` request, with the rows that its statements see and their
outcomes. -/
structure TotpLogin where
  /-- The code, trimmed. -/
  code : String
  now : Int
  /-- The TOTP columns at the verification, and the outcomes of its statements. -/
  store : Store
  outcomes : List Bool
  /-- The accounts when the user is loaded again. -/
  accounts : List Account
  saved : Bool

/-- What `verify_totp_or_recovery` returns for a user. -/
def TotpLogin.verify (k : Crypto) (r : TotpLogin) (userId : Uuid) : Except ApiError Bool :=
  ((verifyTotpOrRecovery k userId r.code r.now).exec (Program.faulty TotpCmd.sem)
    (r.store, r.outcomes)).2

/-- The request as `google_verify_totp` sees it, for the marked user. -/
def TotpLogin.request (k : Crypto) (r : TotpLogin) (userId : Uuid) : TotpRequest where
  code := r.code
  verified :=
    match r.verify k userId with
    | .ok ok => some ok
    | .error _ => none
  accounts := r.accounts
  saved := r.saved

/-- The code is there and is accepted for the user. -/
def TotpLogin.Passes (k : Crypto) (r : TotpLogin) (userId : Uuid) : Prop :=
  r.code.isEmpty = false ∧ r.verify k userId = .ok true

/-- What a request behind `CurrentUser` does to its session. -/
inductive SessionEffect where
  | none
  /-- `revoke_other_sessions`. -/
  | resync (watermark : Int)
  /-- `delete_account`. -/
  | flush

/-- The requests on one session. -/
inductive LoginRequest where
  | googleCallback (r : CallbackRequest)
  | googleVerifyTotp (r : TotpLogin)
  | logout (flushed : Bool)
  | authenticated (accounts : List Account) (effect : SessionEffect)

/-- A session with the users whom a `google_callback` on it authenticated. -/
structure SignIn where
  session : Session
  google : List Uuid

def SignIn.start : SignIn := ⟨.empty, []⟩

/-- `google_verify_totp` on a session. -/
def verifyTotpLogin (k : Crypto) (r : TotpLogin) (s : Session) :
    Except SessionError (Session × LoginResponse) :=
  match s.pendingTotpUser with
  | none => .error .unauthorized
  | some userId => googleVerifyTotp (r.request k userId) s

/-- A request behind `CurrentUser`. -/
def applyEffect (b : SignIn) : SessionEffect → SignIn
  | .none => b
  | .resync watermark => { b with session := { b.session with pwChangedAt := some watermark } }
  | .flush => .start

/-- One request. -/
def signIn (k : Crypto) (b : SignIn) : LoginRequest → SignIn
  | .googleCallback r =>
      match googleCallback r b.session with
      | .ok (s, response) => ⟨s, response.user :: b.google⟩
      | .error _ => b
  | .googleVerifyTotp r =>
      match verifyTotpLogin k r b.session with
      | .ok (s, _) => { b with session := s }
      | .error _ => b
  | .logout flushed => if flushed then .start else b
  | .authenticated accounts effect =>
      match currentUser accounts b.session with
      | .ok _ => applyEffect b effect
      | .error _ => b

/-- The factors that a request has checked for a user: Google alone, for a row without 2FA,
or a code. -/
def FactorsChecked (k : Crypto) (u : Uuid) : LoginRequest → Prop
  | .googleCallback r =>
      ∃ info user, r.info = some info ∧ r.account info.email info.sub = .ok user ∧
        user.id = u ∧ user.totpEnabled = false
  | .googleVerifyTotp r => r.Passes k u
  | _ => False

/-- The identity of the session becomes `u` only after both factors, and a failed or missing
code leaves it as it is. -/
structure Guarded (k : Crypto) (b : SignIn) (e : LoginRequest) : Prop where
  becomes : ∀ u, b.session.userId ≠ some u → (signIn k b e).session.userId = some u →
    u ∈ (signIn k b e).google ∧ FactorsChecked k u e
  failed : ∀ r, e = .googleVerifyTotp r →
    (∀ u, b.session.pendingTotpUser = some u → ¬ r.Passes k u) →
      (signIn k b e).session.userId = b.session.userId

/-- The marked user was authenticated through Google. -/
def Marked (b : SignIn) : Prop := ∀ u, b.session.pendingTotpUser = some u → u ∈ b.google

section Requests

variable {k : Crypto} {b : SignIn}

/-- A callback that succeeds marks the user or signs the user in. -/
theorem googleCallback_effect {r : CallbackRequest} {s s' : Session} {response : LoginResponse}
    (h : googleCallback r s = .ok (s', response)) :
    ∃ info user, r.info = some info ∧ r.account info.email info.sub = .ok user ∧
      response.user = user.id ∧
        (user.totpEnabled = true ∧ s' = { s with pendingTotpUser := some user.id } ∨
          user.totpEnabled = false ∧
            s' = { s with userId := some user.id, pwChangedAt := some user.watermark }) := by
  unfold googleCallback at h
  simp only [bind_eq_ok, require_eq_ok] at h
  obtain ⟨_, -, _, -, h⟩ := h
  cases hinfo : r.info with
  | none =>
      rw [hinfo] at h
      cases h
  | some info =>
      rw [hinfo] at h
      simp only [bind_eq_ok, require_eq_ok] at h
      obtain ⟨_, -, user, huser, _, -, _, -, _, -, h⟩ := h
      refine ⟨info, user, rfl, huser, ?_⟩
      cases htotp : user.totpEnabled with
      | true =>
          rw [htotp] at h
          cases h
          exact ⟨rfl, Or.inl ⟨rfl, rfl⟩⟩
      | false =>
          rw [htotp] at h
          cases h
          exact ⟨rfl, Or.inr ⟨rfl, rfl⟩⟩

/-- A verification that succeeds signs the marked user in, with an accepted code. -/
theorem verifyTotpLogin_effect {r : TotpLogin} {s s' : Session} {response : LoginResponse}
    (h : verifyTotpLogin k r s = .ok (s', response)) :
    ∃ u, s.pendingTotpUser = some u ∧ r.Passes k u ∧ s'.userId = some u ∧
      s'.pendingTotpUser = none := by
  unfold verifyTotpLogin at h
  cases hpending : s.pendingTotpUser with
  | none =>
      rw [hpending] at h
      cases h
  | some u =>
      rw [hpending] at h
      dsimp only at h
      unfold googleVerifyTotp at h
      rw [hpending] at h
      simp only [bind_eq_ok, require_eq_ok] at h
      obtain ⟨ok, haccepted, _, hok, h⟩ := h
      subst hok
      have hpasses : r.Passes k u := by
        unfold TotpRequest.accepted at haccepted
        cases hcode : r.code.isEmpty with
        | true =>
            simp [TotpLogin.request, hcode] at haccepted
        | false =>
            refine ⟨hcode, ?_⟩
            rcases hverify : r.verify k u with e | ok
            · simp [TotpLogin.request, hcode, hverify] at haccepted
            · simp [TotpLogin.request, hcode, hverify] at haccepted
              rw [haccepted]
      cases huser : findById (r.request k u).accounts u with
      | none =>
          rw [huser] at h
          cases h
      | some user =>
          rw [huser] at h
          simp only [bind_eq_ok, require_eq_ok] at h
          obtain ⟨_, -, _, -, h⟩ := h
          cases h
          exact ⟨u, rfl, hpasses, congrArg some (findById_id huser), rfl⟩

/-- A request that leaves the session alone. -/
theorem guarded_of_same {e : LoginRequest} (h : signIn k b e = b) : Guarded k b e where
  becomes u hnot hu := by
    rw [h] at hu
    exact absurd hu hnot
  failed r _ _ := by
    rw [h]

/-- A request other than the logins keeps the identity of the session or drops it. -/
theorem guarded_of_dropped {e : LoginRequest} (he : ∀ r, e ≠ .googleVerifyTotp r)
    (h : (signIn k b e).session.userId = b.session.userId ∨
      (signIn k b e).session.userId = none) : Guarded k b e where
  becomes u hnot hu := by
    rcases h with hsame | hnone
    · rw [hsame] at hu
      exact absurd hu hnot
    · rw [hnone] at hu
      cases hu
  failed r hr := absurd hr (he r)

/-- One request. -/
theorem signIn_step (h : Marked b) (e : LoginRequest) :
    Marked (signIn k b e) ∧ Guarded k b e := by
  have hstart : Marked SignIn.start := by
    intro u hu
    cases hu
  cases e with
  | googleCallback r =>
      rcases hr : googleCallback r b.session with error | ⟨s, response⟩
      · have hsame : signIn k b (.googleCallback r) = b := by
          simp only [signIn, hr]
        rw [hsame]
        exact ⟨h, guarded_of_same hsame⟩
      · obtain ⟨info, user, hinfo, huser, hresponse, heffect⟩ := googleCallback_effect hr
        have hnext : signIn k b (.googleCallback r) = ⟨s, user.id :: b.google⟩ := by
          simp only [signIn, hr, hresponse]
        rcases heffect with ⟨-, rfl⟩ | ⟨htotp, rfl⟩
        · refine ⟨?_, guarded_of_dropped (fun _ hne => by cases hne) (Or.inl ?_)⟩
          · rw [hnext]
            intro u hu
            cases hu
            exact List.mem_cons_self
          · rw [hnext]
        · refine ⟨?_, ?_, fun _ hne => by cases hne⟩
          · rw [hnext]
            intro u hu
            exact List.mem_cons_of_mem _ (h u hu)
          · intro u hnot hu
            rw [hnext] at hu ⊢
            cases hu
            exact ⟨List.mem_cons_self, info, user, hinfo, huser, rfl, htotp⟩
  | googleVerifyTotp r =>
      rcases hr : verifyTotpLogin k r b.session with error | ⟨s, response⟩
      · have hsame : signIn k b (.googleVerifyTotp r) = b := by
          simp only [signIn, hr]
        rw [hsame]
        exact ⟨h, guarded_of_same hsame⟩
      · obtain ⟨u, hpending, hpasses, huser, hcleared⟩ := verifyTotpLogin_effect hr
        have hnext : signIn k b (.googleVerifyTotp r) = { b with session := s } := by
          simp only [signIn, hr]
        refine ⟨?_, ?_, ?_⟩
        · rw [hnext]
          intro v hv
          rw [hcleared] at hv
          cases hv
        · intro v hnot hv
          rw [hnext] at hv ⊢
          obtain rfl : u = v := Option.some.inj (huser.symm.trans hv)
          exact ⟨h u hpending, hpasses⟩
        · intro r' hr' hfails
          cases hr'
          exact absurd hpasses (hfails u hpending)
  | logout flushed =>
      cases flushed with
      | false =>
          exact ⟨h, guarded_of_same rfl⟩
      | true =>
          exact ⟨hstart, guarded_of_dropped (fun _ hne => by cases hne) (Or.inr rfl)⟩
  | authenticated accounts effect =>
      rcases hr : currentUser accounts b.session with error | user
      · have hsame : signIn k b (.authenticated accounts effect) = b := by
          simp only [signIn, hr]
        rw [hsame]
        exact ⟨h, guarded_of_same hsame⟩
      · have hnext : signIn k b (.authenticated accounts effect) = applyEffect b effect := by
          simp only [signIn, hr]
        refine ⟨?_, guarded_of_dropped (fun _ hne => by cases hne) ?_⟩
        · rw [hnext]
          cases effect with
          | none =>
              exact h
          | resync watermark =>
              exact h
          | flush =>
              exact hstart
        · rw [hnext]
          cases effect with
          | none =>
              exact Or.inl rfl
          | resync watermark =>
              exact Or.inl rfl
          | flush =>
              exact Or.inr rfl

end Requests

/--
In every sequence of logins, logouts and authenticated requests on one session, the
session becomes that of a user only by a request that checked both factors of that user,
and a failed or missing code changes nothing.
-/
theorem second_factor_not_bypassed (k : Crypto) (es : List LoginRequest) :
    Along (signIn k) (Guarded k) SignIn.start es := by
  refine along_of_inv Marked (fun b e h _ => (signIn_step h e).1)
    (fun b e h _ => (signIn_step h e).2) ?_
    (along_of_forall (fun _ _ => trivial) _ es)
  intro u hu
  cases hu

end Sessions

end Api
end ZeroVpn
