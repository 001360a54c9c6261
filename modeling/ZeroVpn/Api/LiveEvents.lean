import ZeroVpn.Api.SignOut

/-!
# Live events

`ws`, `run` and `visible_to` of `routes/ws.rs`: the extractor `CurrentUser` runs
once, at the upgrade, and the loop then filters the events of the broadcast
channel with the user and the role that it found.  The statements with which
other requests change accounts and sessions (`set_user_role`, `set_user_status`,
`delete_user` of `routes/admin.rs`, sign-outs, logins, impersonations, logouts)
may come between any two steps of it.

An event carries here what `visible_to` reads.  A receiver that lags behind
loses its oldest events.

A connection keeps the authority of its upgrade.  So the events it is sent are
those its user may see as long as no statement takes away authority on which an
open connection rests.
-/

namespace ZeroVpn

open Library

namespace Api
namespace Sessions

open Db (Uuid UserRole UserStatus)

/-- `zerovpn_wire::Event`, with the user it is about. -/
inductive Event where
  | heartbeat
  | statsDelta (userId : Uuid)
  | handshakeChange (userId : Uuid)
  | peerStatusChanged (userId : Uuid)
  | serverHealth
  | serverSample
  | dataChanged (userId : Option Uuid)
  | notify (userId : Option Uuid)
  deriving DecidableEq, Repr

/-- `visible_to`. -/
def visibleTo (event : Event) (userId : Uuid) (role : UserRole) : Bool :=
  if role = .admin then true
  else
    match event with
    | .serverHealth => true
    | .heartbeat | .serverSample => false
    | .statsDelta u | .handshakeChange u | .peerStatusChanged u => u == userId
    | .dataChanged owner | .notify owner => owner == some userId

def broadcastBuffer : Nat := 64

/-- A request for `/ws`, from its extractor to the end of its loop. -/
inductive Socket where
  /-- The session was loaded; the row of the user was not read yet. -/
  | loaded (sid : SessionId) (session : Session)
  /-- The extractor succeeded. -/
  | authorized (sid : SessionId) (userId : Uuid) (role : UserRole)
  /-- The loop of `run`, with the events it has not received yet. -/
  | streaming (sid : SessionId) (userId : Uuid) (role : UserRole) (queue : List Event)
  | closed
  deriving DecidableEq, Repr

namespace Socket

/-- The session, the user and the role on which a connection rests. -/
def holder : Socket → Option (SessionId × Uuid × UserRole)
  | authorized sid userId role | streaming sid userId role _ => some (sid, userId, role)
  | loaded .. | closed => none

/-- `events.send`. -/
def push (event : Event) : Socket → Socket
  | streaming sid userId role queue =>
      let queue := queue ++ [event]
      streaming sid userId role (queue.drop (queue.length - broadcastBuffer))
  | s => s

end Socket

structure LiveState where
  /-- The rows of `users` that are not deleted. -/
  accounts : List Account
  /-- `tower_sessions.session`. -/
  store : SessionId → Option Session
  sockets : List Socket

/-- The session behind a cookie. -/
def LiveState.session (s : LiveState) (sid : SessionId) : Session := (s.store sid).getD .empty

/-- The extractor accepts the session. -/
def Accepted (accounts : List Account) (session : Session) : Prop :=
  ∃ user, currentUser accounts session = .ok user

/-- What becomes of an event that is to be sent. -/
inductive SendOutcome where
  | sent
  | encodeFailed
  | clientGone
  deriving DecidableEq, Repr

/-- One step of the server. -/
inductive LiveStep where
  /-- A request for `/ws`: its extractor loads the session. -/
  | load (sid : SessionId)
  /-- The extractor of the request reads the row of the user. -/
  | lookup (i : Nat)
  /-- `state.events.subscribe()`. -/
  | subscribe (i : Nat)
  | publish (event : Event)
  /-- `rx.recv()` in the loop. -/
  | receive (i : Nat) (outcome : SendOutcome)
  /-- The client is gone. -/
  | disconnect (i : Nat)
  | adminSetRole (id : Uuid) (role : UserRole)
  | adminSetStatus (id : Uuid) (status : UserStatus)
  | deleteUser (id : Uuid)
  | killAllSessions (id : Uuid) (now : Int)
  /-- A login, an impersonation or its end. -/
  | saveSession (sid : SessionId) (session : Session)
  /-- A logout or the revocation of the session. -/
  | dropSession (sid : SessionId)
  deriving DecidableEq

/-- `UPDATE users … WHERE id = $1`. -/
def updateAccount (id : Uuid) (f : Account → Account) (accounts : List Account) : List Account :=
  accounts.map fun a => if a.id = id then f a else a

/-- The loop of `run` after an event was received. -/
def Socket.received (event : Event) (sid : SessionId) (userId : Uuid) (role : UserRole)
    (queue : List Event) (outcome : SendOutcome) : Socket :=
  if visibleTo event userId role && outcome == .clientGone then .closed
  else .streaming sid userId role queue

def liveStep (s : LiveState) : LiveStep → LiveState
  | .load sid => { s with sockets := s.sockets ++ [.loaded sid (s.session sid)] }
  | .lookup i =>
      match s.sockets[i]? with
      | some (.loaded sid session) =>
          match currentUser s.accounts session with
          | .ok user => { s with sockets := s.sockets.set i (.authorized sid user.id user.role) }
          | .error _ => { s with sockets := s.sockets.set i .closed }
      | _ => s
  | .subscribe i =>
      match s.sockets[i]? with
      | some (.authorized sid userId role) =>
          { s with sockets := s.sockets.set i (.streaming sid userId role []) }
      | _ => s
  | .publish event => { s with sockets := s.sockets.map (.push event) }
  | .receive i outcome =>
      match s.sockets[i]? with
      | some (.streaming sid userId role (event :: queue)) =>
          { s with sockets := s.sockets.set i (.received event sid userId role queue outcome) }
      | _ => s
  | .disconnect i => { s with sockets := s.sockets.set i .closed }
  | .adminSetRole id role =>
      { s with accounts := updateAccount id (fun a => { a with role := role }) s.accounts }
  | .adminSetStatus id status =>
      { s with accounts := updateAccount id (fun a => { a with status := status }) s.accounts }
  | .deleteUser id => { s with accounts := s.accounts.filter fun a => a.id != id }
  | .killAllSessions id now =>
      { s with
        accounts := updateAccount id (fun a => { a with passwordChangedAt := now }) s.accounts }
  | .saveSession sid session => { s with store := Function.update s.store sid (some session) }
  | .dropSession sid => { s with store := Function.update s.store sid none }

/-- An event that a step sends: the session and the user of the connection, and the
event. -/
def sends (s : LiveState) : LiveStep → Option (SessionId × Uuid × Event)
  | .receive i .sent =>
      match s.sockets[i]? with
      | some (.streaming sid userId role (event :: _)) =>
          if visibleTo event userId role then some (sid, userId, event) else none
      | _ => none
  | _ => none

/-- The user is active, the session would still be accepted, and the user may see the
event in the role they have now. -/
def DeliveryAllowed (s : LiveState) (sid : SessionId) (userId : Uuid) (event : Event) : Prop :=
  (∃ a, findById s.accounts userId = some a ∧ a.status = .active ∧
    visibleTo event userId a.role = true) ∧
  Accepted s.accounts (s.session sid)

/-- The step takes away what a connection of the user rests on. -/
def LiveStep.Withdraws (s : LiveState) (sid : SessionId) (userId : Uuid) (role : UserRole) :
    LiveStep → Prop
  | adminSetRole id role' => userId = id ∧ role = .admin ∧ role' ≠ .admin
  | adminSetStatus id status =>
      status ≠ .active ∧ (userId = id ∨ (s.session sid).userId = some id)
  | deleteUser id => userId = id ∨ (s.session sid).userId = some id
  | killAllSessions id now =>
      (s.session sid).userId = some id ∧ (s.session sid).pwChangedAt ≠ some (now / 1000000)
  | saveSession sid' session => sid' = sid ∧ ¬ Accepted s.accounts session
  | dropSession sid' => sid' = sid
  | _ => False

/-- The session that an extractor loaded, if it is still good for a user, has not been
replaced by one that is not. -/
def LoadedCurrent (s : LiveState) : LiveStep → Prop
  | .lookup i => ∀ sid session, s.sockets[i]? = some (.loaded sid session) →
      Accepted s.accounts session → Accepted s.accounts (s.session sid)
  | _ => True

/-- No step takes away authority on which an open connection rests. -/
def KeepsAuthority (s : LiveState) (e : LiveStep) : Prop :=
  (∀ k ∈ s.sockets, ∀ sid userId role, k.holder = some (sid, userId, role) →
    ¬ e.Withdraws s sid userId role) ∧ LoadedCurrent s e

/-- What the extractor asks of the stored session and of the row of its user. -/
theorem accepted_iff {accounts : List Account} {session : Session} :
    Accepted accounts session ↔ ∃ id a, session.userId = some id ∧
      findById accounts id = some a ∧ a.status = .active ∧
      session.pwChangedAt = some a.watermark := by
  unfold Accepted currentUser
  cases session.userId with
  | none =>
      simp
  | some id =>
      cases hfind : findById accounts id with
      | none =>
          simp [hfind]
      | some a =>
          simp [hfind, bind_eq_ok]

theorem findById_updateAccount {f : Account → Account} (hf : ∀ a, (f a).id = a.id) (id x : Uuid)
    (accounts : List Account) :
    findById (updateAccount id f accounts) x =
      (findById accounts x).map fun a => if a.id = id then f a else a := by
  unfold findById updateAccount
  rw [List.find?_map]
  congr 2
  funext a
  simp only [Function.comp_apply]
  split
  · rw [hf]
  · rfl

theorem findById_filter {id x : Uuid} (hx : x ≠ id) (accounts : List Account) :
    findById (accounts.filter fun a => a.id != id) x = findById accounts x := by
  unfold findById
  rw [List.find?_filter]
  congr 1
  funext a
  by_cases ha : a.id = x
  · simp [ha, hx]
  · simp [ha]

/-- What a user may see, they may see in a role with at least as many rights. -/
theorem visibleTo_mono {event : Event} {userId : Uuid} {role role' : UserRole}
    (hrole : role = .admin → role' = .admin) (h : visibleTo event userId role = true) :
    visibleTo event userId role' = true := by
  cases role' with
  | admin =>
      rfl
  | user =>
      cases role with
      | admin =>
          cases hrole rfl
      | user =>
          exact h

/-- What a connection rests on: its user is active and has at least its role, and its
session is accepted. -/
def Rests (s : LiveState) (sid : SessionId) (userId : Uuid) (role : UserRole) : Prop :=
  (∃ a, findById s.accounts userId = some a ∧ a.status = .active ∧
    (role = .admin → a.role = .admin)) ∧
  Accepted s.accounts (s.session sid)

def Authorised (s : LiveState) : Prop :=
  ∀ k ∈ s.sockets, ∀ sid userId role, k.holder = some (sid, userId, role) →
    Rests s sid userId role

section Rests

variable {s : LiveState} {sid : SessionId} {userId : Uuid} {role : UserRole}

/-- An update of a row that the connection survives. -/
theorem Rests.update {id : Uuid} {f : Account → Account} (hf : ∀ a, (f a).id = a.id)
    (h : Rests s sid userId role)
    (huser : ∀ a, userId = id → a.status = .active → (role = .admin → a.role = .admin) →
      (f a).status = .active ∧ (role = .admin → (f a).role = .admin))
    (hsession : ∀ a : Account, (s.session sid).userId = some id → a.status = .active →
      (s.session sid).pwChangedAt = some a.watermark →
      (f a).status = .active ∧ (s.session sid).pwChangedAt = some (f a).watermark) :
    Rests { s with accounts := updateAccount id f s.accounts } sid userId role := by
  obtain ⟨⟨a, hfind, hactive, hrole⟩, hsaved⟩ := h
  obtain ⟨x, b, hx, hb, hbactive, hpw⟩ := accepted_iff.mp hsaved
  refine ⟨?_, accepted_iff.mpr ?_⟩
  · refine ⟨if a.id = id then f a else a, ?_, ?_⟩
    · rw [findById_updateAccount hf, hfind]
      rfl
    · split
      · rename_i ha
        exact huser a ((findById_id hfind).symm.trans ha) hactive hrole
      · exact ⟨hactive, hrole⟩
  · refine ⟨x, if b.id = id then f b else b, hx, ?_, ?_⟩
    · rw [findById_updateAccount hf, hb]
      rfl
    · split
      · rename_i hbid
        have hid : x = id := (findById_id hb).symm.trans hbid
        exact hsession b (hid ▸ hx) hbactive hpw
      · exact ⟨hbactive, hpw⟩

/-- A step after which the tables differ keeps what it does not withdraw. -/
theorem Rests.step (h : Rests s sid userId role) {e : LiveStep}
    (he : ¬ e.Withdraws s sid userId role) : Rests (liveStep s e) sid userId role := by
  cases e with
  | load | publish | disconnect =>
      exact h
  | lookup i =>
      simp only [liveStep]
      split
      · split <;> exact h
      · exact h
  | subscribe i | receive i =>
      simp only [liveStep]
      split <;> exact h
  | adminSetRole id role' =>
      refine h.update (fun _ => rfl) (fun a hid hactive hrole => ⟨hactive, fun hadmin => ?_⟩)
        fun a _ hactive hpw => ⟨hactive, hpw⟩
      by_contra hne
      exact he ⟨hid, hadmin, hne⟩
  | adminSetStatus id status =>
      refine h.update (fun _ => rfl) (fun a hid _ hrole => ⟨?_, hrole⟩)
        fun a hid _ hpw => ⟨?_, hpw⟩
      · by_contra hne
        exact he ⟨hne, .inl hid⟩
      · by_contra hne
        exact he ⟨hne, .inr hid⟩
  | killAllSessions id now =>
      refine h.update (fun _ => rfl) (fun a _ hactive hrole => ⟨hactive, hrole⟩)
        fun a hid hactive _ => ⟨hactive, ?_⟩
      by_contra hne
      exact he ⟨hid, hne⟩
  | deleteUser id =>
      obtain ⟨⟨a, hfind, hrest⟩, hsaved⟩ := h
      obtain ⟨x, b, hx, hb, hrest'⟩ := accepted_iff.mp hsaved
      have huser : userId ≠ id := fun hid => he (.inl hid)
      have hsession : x ≠ id := fun hid => he (.inr (hid ▸ hx))
      refine ⟨⟨a, ?_, hrest⟩, accepted_iff.mpr ⟨x, b, hx, ?_, hrest'⟩⟩
      · exact (findById_filter huser _).trans hfind
      · exact (findById_filter hsession _).trans hb
  | saveSession sid' session =>
      refine ⟨h.1, ?_⟩
      by_cases hsid : sid' = sid
      · have hgood : Accepted s.accounts session := by
          by_contra hbad
          exact he ⟨hsid, hbad⟩
        simpa [liveStep, LiveState.session, hsid] using hgood
      · simpa [liveStep, LiveState.session, Function.update_of_ne (Ne.symm hsid)] using h.2
  | dropSession sid' =>
      refine ⟨h.1, ?_⟩
      have hsid : sid ≠ sid' := fun hsid => he hsid.symm
      simpa [liveStep, LiveState.session, Function.update_of_ne hsid] using h.2

end Rests

theorem holder_push (event : Event) (k : Socket) : (k.push event).holder = k.holder := by
  cases k <;> rfl

theorem holder_received {event : Event} {sid : SessionId} {userId : Uuid} {role : UserRole}
    {queue : List Event} {outcome : SendOutcome} {h : SessionId × Uuid × UserRole}
    (hk : (Socket.received event sid userId role queue outcome).holder = some h) :
    h = (sid, userId, role) := by
  unfold Socket.received at hk
  split at hk
  · cases hk
  · exact (Option.some.inj hk).symm

/-- A connection that rests on something rested on it before the step, or its
extractor has just succeeded. -/
theorem holder_step {s : LiveState} {e : LiveStep} {k : Socket} {h : SessionId × Uuid × UserRole}
    (hk : k ∈ (liveStep s e).sockets) (hh : k.holder = some h) :
    (∃ k' ∈ s.sockets, k'.holder = some h) ∨
      ∃ i sid session user, e = .lookup i ∧ s.sockets[i]? = some (.loaded sid session) ∧
        currentUser s.accounts session = .ok user ∧ h = (sid, user.id, user.role) := by
  cases e with
  | load sid =>
      rcases List.mem_append.mp hk with hold | hnew
      · exact .inl ⟨k, hold, hh⟩
      · rw [List.mem_singleton.mp hnew] at hh
        cases hh
  | lookup i =>
      simp only [liveStep] at hk
      split at hk
      · rename_i sid session hsocket
        split at hk
        · rename_i user huser
          rcases List.mem_or_eq_of_mem_set hk with hold | rfl
          · exact .inl ⟨k, hold, hh⟩
          · exact .inr ⟨i, sid, session, user, rfl, hsocket, huser, (Option.some.inj hh).symm⟩
        · rcases List.mem_or_eq_of_mem_set hk with hold | rfl
          · exact .inl ⟨k, hold, hh⟩
          · cases hh
      · exact .inl ⟨k, hk, hh⟩
  | subscribe i =>
      simp only [liveStep] at hk
      split at hk
      · rename_i sid userId role hsocket
        rcases List.mem_or_eq_of_mem_set hk with hold | rfl
        · exact .inl ⟨k, hold, hh⟩
        · exact .inl ⟨_, List.mem_of_getElem? hsocket, hh⟩
      · exact .inl ⟨k, hk, hh⟩
  | publish event =>
      obtain ⟨k', hk', rfl⟩ := List.mem_map.mp hk
      exact .inl ⟨k', hk', (holder_push event k').symm.trans hh⟩
  | receive i outcome =>
      simp only [liveStep] at hk
      split at hk
      · rename_i sid userId role event queue hsocket
        rcases List.mem_or_eq_of_mem_set hk with hold | rfl
        · exact .inl ⟨k, hold, hh⟩
        · refine .inl ⟨_, List.mem_of_getElem? hsocket, ?_⟩
          rw [holder_received hh]
          rfl
      · exact .inl ⟨k, hk, hh⟩
  | disconnect i =>
      rcases List.mem_or_eq_of_mem_set hk with hold | rfl
      · exact .inl ⟨k, hold, hh⟩
      · cases hh
  | adminSetRole | adminSetStatus | deleteUser | killAllSessions | saveSession | dropSession =>
      exact .inl ⟨k, hk, hh⟩

/-- A step that withdraws nothing keeps the authority of all connections. -/
theorem authorised_step {s : LiveState} {e : LiveStep} (h : Authorised s)
    (he : KeepsAuthority s e) : Authorised (liveStep s e) := by
  intro k hk sid userId role hholder
  rcases holder_step hk hholder with ⟨k', hk', hheld⟩ | ⟨i, sid', session, user, rfl, hsocket, huser, heq⟩
  · exact (h k' hk' sid userId role hheld).step (he.1 k' hk' sid userId role hheld)
  · injection heq with hsid heq
    injection heq with huserId hrole
    subst hsid huserId hrole
    obtain ⟨-, hfind, -⟩ := currentUser_ok huser
    have hactive : user.status = .active := by
      obtain ⟨id, a, hid, ha, hactive, -⟩ := accepted_iff.mp ⟨user, huser⟩
      rw [(currentUser_ok huser).1] at hid
      injection hid with hid
      rw [← hid, hfind] at ha
      injection ha with ha
      rwa [ha]
    have hrests : Rests s sid user.id user.role :=
      ⟨⟨user, hfind, hactive, id⟩, he.2 sid session hsocket ⟨user, huser⟩⟩
    exact hrests.step (e := .lookup i) fun hwithdraws => hwithdraws

/-- What is sent over a connection with authority may be sent. -/
theorem deliveryAllowed_of_sends {s : LiveState} {e : LiveStep} (h : Authorised s)
    {sid : SessionId} {userId : Uuid} {event : Event} (hsends : sends s e = some (sid, userId, event)) :
    DeliveryAllowed s sid userId event := by
  unfold sends at hsends
  split at hsends
  · split at hsends
    · rename_i sid' userId' role event' queue hsocket
      split at hsends
      · rename_i hvisible
        injection hsends with hsends
        injection hsends with hsid hsends
        injection hsends with huser hevent
        subst hsid huser hevent
        obtain ⟨⟨a, hfind, hactive, hrole⟩, hsession⟩ :=
          h _ (List.mem_of_getElem? hsocket) sid' userId' role rfl
        exact ⟨⟨a, hfind, hactive, visibleTo_mono hrole hvisible⟩, hsession⟩
      · cases hsends
    · cases hsends
  · cases hsends

/-- In every run in which no step takes away authority on which an open connection
rests, every event is sent to a user who may see it at that moment. -/
theorem live_delivery_authorised (accounts : List Account) (store : SessionId → Option Session)
    (es : List LiveStep) (hes : Along liveStep KeepsAuthority ⟨accounts, store, []⟩ es) :
    Along liveStep (fun s e => ∀ sid userId event, sends s e = some (sid, userId, event) →
      DeliveryAllowed s sid userId event) ⟨accounts, store, []⟩ es := by
  refine along_of_inv Authorised (fun s e => authorised_step) ?_ ?_ hes
  · intro s e h _ sid userId event hsends
    exact deliveryAllowed_of_sends h hsends
  · intro k hk
    cases hk

section Sample

def sampleAdmin (id : Uuid) : Account where
  id := id
  email := ""
  googleId := none
  role := .admin
  status := .active
  totpEnabled := false
  passwordChangedAt := 0

/-- Two administrators; the session of the second one. -/
def sampleLive : LiveState where
  accounts := [sampleAdmin 1, sampleAdmin 2]
  store sid := if sid = 7 then some { Session.empty with userId := some 2, pwChangedAt := some 0 }
    else none
  sockets := []

/-- The second administrator opens a connection. -/
def sampleConnect : List LiveStep := [.load 7, .lookup 0, .subscribe 0]

/-- A demoted administrator still gets the events of administrators. -/
theorem demoted_keeps_receiving :
    let es := sampleConnect ++ [LiveStep.adminSetRole 2 .user, LiveStep.publish .heartbeat]
    let s := runEvents liveStep sampleLive es
    sends s (LiveStep.receive 0 .sent) = some (7, 2, .heartbeat) ∧
      ¬ Along liveStep (fun s e => ∀ sid userId event, sends s e = some (sid, userId, event) →
        DeliveryAllowed s sid userId event) sampleLive (es ++ [LiveStep.receive 0 .sent]) := by
  intro es s
  have hsends : sends s (LiveStep.receive 0 .sent) = some (7, 2, .heartbeat) := by decide
  refine ⟨hsends, fun h => ?_⟩
  obtain ⟨⟨a, hfind, -, hvisible⟩, -⟩ := (along_append.mp h).2.1 7 2 .heartbeat hsends
  have hrole : (findById s.accounts 2).map Account.role = some .user := by decide
  rw [hfind] at hrole
  injection hrole with hrole
  rw [hrole] at hvisible
  cases hvisible

/-- A promotion takes nothing away. -/
theorem live_delivery_sample :
    Along liveStep (fun s e => ∀ sid userId event, sends s e = some (sid, userId, event) →
        DeliveryAllowed s sid userId event) sampleLive
      (sampleConnect ++ [LiveStep.adminSetRole 2 .admin, LiveStep.publish .heartbeat,
        LiveStep.receive 0 .sent]) := by
  refine live_delivery_authorised _ _ _ ?_
  refine ⟨⟨?_, trivial⟩, ⟨?_, ?_⟩, ⟨?_, trivial⟩, ⟨?_, trivial⟩, ⟨?_, trivial⟩, ⟨?_, trivial⟩,
    trivial⟩
  · exact fun k hk sid userId role hholder hwithdraws => hwithdraws
  · exact fun k hk sid userId role hholder hwithdraws => hwithdraws
  · intro sid session hsocket haccepted
    cases hsocket
    exact haccepted
  · exact fun k hk sid userId role hholder hwithdraws => hwithdraws
  · exact fun k hk sid userId role hholder hwithdraws => hwithdraws.2.2 rfl
  · exact fun k hk sid userId role hholder hwithdraws => hwithdraws
  · exact fun k hk sid userId role hholder hwithdraws => hwithdraws

end Sample

end Sessions
end Api
end ZeroVpn
